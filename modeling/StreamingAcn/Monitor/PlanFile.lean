/-
StreamingAcn.Monitor.PlanFile — wishes from a file.

A plan file gives some of seven keys and no others. The form of the output is given by its name, or
by a table that has the name as its only key and nothing under it.
-/
import StreamingAcn.Monitor.Plan
import StreamingAcn.Text.Utf8
import StreamingAcn.Toml.Document

namespace StreamingAcn.Monitor

open Toml (Node)

/-- Why a file gives no wishes. -/
inductive FileError
  | missing
  | unreadable (cause : String)
  | notText
  /-- The text is not well formed, or says something else than wishes. -/
  | malformed
  deriving DecidableEq

def FileError.message : FileError → String
  | .missing => "I/O error: No such file or directory (os error 2)"
  | .unreadable cause => s!"I/O error: {cause}"
  | .notText => "I/O error: stream did not contain valid UTF-8"
  | .malformed => "TOML parse error"

namespace PlanFile

def keys : List String :=
  ["bind", "interface", "multicast", "universes", "timeout_ms", "sink_capacity", "format"]

def text? : Node → Option String
  | .string s => some s
  | _ => none

def boolean? : Node → Option Bool
  | .boolean b => some b
  | _ => none

/-- The number that a node is, if it is not negative. -/
def natural? : Node → Option Nat
  | .integer n => if 0 ≤ n then some n.toNat else none
  | _ => none

def universe? (node : Node) : Option UniverseId :=
  (natural? node).bind fun n => if n < 65536 then some (UInt16.ofNat n) else none

def universes? : Node → Option (List UniverseId)
  | .array items => items.mapM universe?
  | _ => none

def isEmpty : Node → Bool
  | .table _ entries => entries.isEmpty
  | .array items => items.isEmpty
  | _ => false

def format? : Node → Option Format
  | .string s => Format.ofName? s
  | .table _ [(name, node)] => if isEmpty node then Format.ofName? name else none
  | _ => none

/-- What a key gives: nothing where it is absent, and `none` where it has a wrong value. -/
def member? {α : Type} (read? : Node → Option α) (key : String) (entries : Node.Entries) :
    Option (Option α) :=
  match Node.find? key entries with
  | none => some none
  | some node => (read? node).map some

/-- The wishes that the tables of a file make. -/
def ofEntries? (entries : Node.Entries) : Option Wishes :=
  if entries.all (fun e => keys.contains e.1) then do
    return {
      endpoint := ← member? (fun n => (text? n).bind Network.Endpoint.ofText?) "bind" entries
      interface := ← member? (fun n => (text? n).bind Network.Ipv4.ofText?) "interface" entries
      multicast := ← member? boolean? "multicast" entries
      universes := ← member? universes? "universes" entries
      timeoutMs := ← member? natural? "timeout_ms" entries
      sinkCapacity := ← member? natural? "sink_capacity" entries
      format := ← member? format? "format" entries }
  else none

inductive Content
  | missing
  | unreadable (cause : String)
  | octets (bytes : Octets)

def ofText? (text : String) : Option Wishes := (Toml.parse? text).bind ofEntries?

def read : Content → Except FileError Wishes
  | .missing => .error .missing
  | .unreadable cause => .error (.unreadable cause)
  | .octets bytes =>
    match Text.Utf8.decode? bytes with
    | none => .error .notText
    | some text =>
      match ofText? text with
      | none => .error .malformed
      | some wishes => .ok wishes

end PlanFile

end StreamingAcn.Monitor
