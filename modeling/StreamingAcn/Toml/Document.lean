/-
StreamingAcn.Toml.Document — reading a settings file.

A file is a sequence of lines: empty ones, comments, headers that name the table that follows, and
values under keys. Only what settings are made of is read: strings, whole numbers, truth values,
arrays and tables. Floating-point numbers, dates and arrays of tables are refused like anything
else that is not well formed.
-/
import StreamingAcn.Toml.Lexeme
import StreamingAcn.Toml.Node

namespace StreamingAcn.Toml

/-! ## Values -/

/-- Drop blanks, line ends and comments inside an array. A comment ends with its line. -/
def skipLines : (fuel : Nat) → List Char → Option (List Char)
  | 0, _ => none
  | fuel + 1, text =>
    match skipBlanks text with
    | [] => some []
    | '#' :: rest => (skipNewline? (rest.dropWhile isPlain)).bind (skipLines fuel)
    | c :: rest =>
      match skipNewline? (c :: rest) with
      | some rest => skipLines fuel rest
      | none => some (c :: rest)

mutual

def readValue : (fuel : Nat) → List Char → Option (Node × List Char)
  | 0, _ => none
  | fuel + 1, text =>
    match text with
    | [] => none
    | c :: rest =>
      if c = '"' ∨ c = apostrophe then
        (readString text).map fun (s, rest) => (.string s, rest)
      else if c = '[' then
        (readItems fuel rest).map fun (items, rest) => (.array items, rest)
      else if c = '\x7b' then
        match skipBlanks rest with
        | '\x7d' :: rest => some (.table .inline [], rest)
        | rest => (readEntries fuel [] rest).map fun (entries, rest) =>
          (.table .inline entries, rest)
      else if c = 't' ∨ c = 'f' then
        match text with
        | 't' :: 'r' :: 'u' :: 'e' :: rest => some (.boolean true, rest)
        | 'f' :: 'a' :: 'l' :: 's' :: 'e' :: rest => some (.boolean false, rest)
        | _ => none
      else (readInteger text).map fun (n, rest) => (.integer n, rest)

/-- Read the items of an array up to its closing bracket. A comma may follow the last one. -/
def readItems : (fuel : Nat) → List Char → Option (List Node × List Char)
  | 0, _ => none
  | fuel + 1, text =>
    match skipLines (text.length + 1) text with
    | none => none
    | some (']' :: rest) => some ([], rest)
    | some text =>
      match readValue fuel text with
      | none => none
      | some (item, rest) =>
        match skipLines (rest.length + 1) rest with
        | some (',' :: rest) =>
          (readItems fuel rest).map fun (items, rest) => (item :: items, rest)
        | some (']' :: rest) => some ([item], rest)
        | _ => none

/-- Read the entries of an inline table up to its closing brace. There is at least one. -/
def readEntries : (fuel : Nat) → Node.Entries → List Char → Option (Node.Entries × List Char)
  | 0, _, _ => none
  | fuel + 1, entries, text =>
    match readKey (text.length + 1) text with
    | some (key, '=' :: rest) =>
      match readValue fuel (skipBlanks rest) with
      | none => none
      | some (value, rest) =>
        match Node.assign? .dotted value key entries, skipBlanks rest with
        | some entries, ',' :: rest => readEntries fuel entries rest
        | some entries, '\x7d' :: rest => some (entries, rest)
        | _, _ => none
    | _ => none

end

/-! ## Lines -/

/-- What has been read of a file: its tables, and the path of the table that lines add to. -/
structure Draft where
  root : Node.Entries
  path : List String

def Draft.empty : Draft := ⟨[], []⟩

/-- The draft after a header that names a table. -/
def Draft.open? (d : Draft) (path : List String) : Option Draft :=
  match path.getLast? with
  | none => none
  | some key => do
    return ⟨← Node.within? (Node.name? key) path.dropLast d.root, path⟩

def Draft.assign? (d : Draft) (key : List String) (value : Node) : Option Draft := do
  return { d with root := ← Node.within? (Node.assign? .header value key) d.path d.root }

/-- Read one statement: a header or a value under a key, without the end of its line. -/
def readStatement (d : Draft) (text : List Char) : Option (Draft × List Char) :=
  match text with
  | '[' :: '[' :: _ => none
  | '[' :: rest =>
    match readKey (rest.length + 1) rest with
    | some (path, ']' :: rest) => (d.open? path).map (·, rest)
    | _ => none
  | _ =>
    match readKey (text.length + 1) text with
    | some (key, '=' :: rest) =>
      match readValue (2 * rest.length + 2) (skipBlanks rest) with
      | some (value, rest) => (d.assign? key value).map (·, rest)
      | none => none
    | _ => none

def readLines : (fuel : Nat) → Draft → List Char → Option Draft
  | 0, _, _ => none
  | fuel + 1, d, text =>
    match skipBlanks text with
    | [] => some d
    | c :: rest =>
      if c = '#' ∨ c = '\n' ∨ c = '\r' then
        (endLine? (c :: rest)).bind (readLines fuel d)
      else
        match readStatement d (c :: rest) with
        | none => none
        | some (d, rest) => (endLine? rest).bind (readLines fuel d)

/-- The tables of a file, if it is well formed. A byte order mark in front is passed over. -/
def parse? (text : String) : Option Node.Entries :=
  let chars := match text.toList with
    | '\ufeff' :: rest => rest
    | chars => chars
  (readLines (chars.length + 1) Draft.empty chars).map (·.root)

end StreamingAcn.Toml
