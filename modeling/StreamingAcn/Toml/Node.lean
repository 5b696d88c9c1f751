/-
StreamingAcn.Toml.Node — what a settings file says.

A file is a table of named nodes. Tables come to be in four ways, and how one came to be decides
what may still be added to it: an inline table is complete, a table named by a header takes no
dotted keys from elsewhere, a table implied by the name of another can be named once, and a table
made by dotted keys only grows by dotted keys.

Definitions:

* `Node.assign?`: the table with a value under a dotted key;
* `Node.name?`: the table with a header's table in it;
* `Node.within?`: a change to the table that a path leads to.
-/

namespace StreamingAcn.Toml

inductive Origin
  | inline
  | header
  /-- Part of the name in a header. -/
  | implied
  /-- Part of a dotted key. -/
  | dotted
  deriving DecidableEq

inductive Node
  | string (s : String)
  | integer (n : Int)
  | boolean (b : Bool)
  | array (items : List Node)
  | table (origin : Origin) (entries : List (String × Node))

namespace Node

/-- The entries of a table, in the order in which they came. -/
abbrev Entries := List (String × Node)

def find? (key : String) : Entries → Option Node
  | [] => none
  | e :: rest => if e.1 = key then some e.2 else find? key rest

/-- The entries with a node under a name, in the place of the node it had. -/
def put (key : String) (node : Node) : Entries → Entries
  | [] => [(key, node)]
  | e :: rest => if e.1 = key then (key, node) :: rest else e :: put key node rest

/--
The entries of a table of the given origin with a value under a dotted key. The name must be new,
the tables on the way may not be inline or named by a header, and the last of them has to be made
by dotted keys itself.
-/
def assign? (origin : Origin) (value : Node) : (path : List String) → Entries → Option Entries
  | [], _ => none
  | [key], entries =>
    match find? key entries with
    | some _ => none
    | none => if origin = .implied then none else some (put key value entries)
  | key :: path, entries =>
    match find? key entries with
    | none => do return put key (.table .dotted (← assign? .dotted value path [])) entries
    | some (.table .dotted inner) => do
      return put key (.table .dotted (← assign? .dotted value path inner)) entries
    | some (.table .implied inner) => do
      return put key (.table .implied (← assign? .implied value path inner)) entries
    | some _ => none

/-- A change to the entries of the table that a path leads to. Missing tables are implied. -/
def within? (change : Entries → Option Entries) : (path : List String) → Entries → Option Entries
  | [], entries => change entries
  | key :: path, entries =>
    match find? key entries with
    | none => do return put key (.table .implied (← within? change path [])) entries
    | some (.table .inline _) => none
    | some (.table origin inner) => do
      return put key (.table origin (← within? change path inner)) entries
    | some _ => none

/-- The entries with the table that a header names: a new one, or one that was only implied. -/
def name? (key : String) (entries : Entries) : Option Entries :=
  match find? key entries with
  | none => some (put key (.table .header []) entries)
  | some (.table .implied inner) => some (put key (.table .header inner) entries)
  | some _ => none

end Node

end StreamingAcn.Toml
