/-
StreamingAcn.Monitor.CommandLine — wishes from flags.

Arguments are read from left to right. A value stands in the argument behind its option, behind an
equals sign, or right behind a one-letter option; letters can share one dash. An argument that
begins with a dash is never the value of the option in front of it. Whether an option has its value
and what the value means is looked at when the next known option or switch begins, or at the end;
an argument that nobody knows is refused at once.

Definitions:

* `Flags`: what the arguments say;
* `UsageError`: why arguments are refused;
* `Flags.parse`: reading arguments.
-/
import StreamingAcn.Monitor.Plan

namespace StreamingAcn.Monitor

/-- Options, which take a value. -/
inductive Opt
  | config
  | bindTo
  | interface
  | universeId
  | timeoutMs
  | format
  deriving DecidableEq

/-- Switches, which take none. -/
inductive Switch
  | noMulticast
  | noColor
  | verbose
  | help
  | version
  deriving DecidableEq

/-- What an argument can name. -/
inductive Name
  | opt (o : Opt)
  | switch (s : Switch)
  deriving DecidableEq

def longNames : List (String × Name) :=
  [("config", .opt .config), ("bind", .opt .bindTo), ("interface", .opt .interface),
   ("universe", .opt .universeId), ("timeout-ms", .opt .timeoutMs), ("format", .opt .format),
   ("no-multicast", .switch .noMulticast), ("no-color", .switch .noColor),
   ("verbose", .switch .verbose), ("help", .switch .help), ("version", .switch .version)]

def shortNames : List (Char × Name) :=
  [('c', .opt .config), ('b', .opt .bindTo), ('i', .opt .interface), ('u', .opt .universeId),
   ('t', .opt .timeoutMs), ('f', .opt .format), ('v', .switch .verbose), ('h', .switch .help),
   ('V', .switch .version)]

/-- Why arguments are refused, or answered without running. -/
inductive UsageError
  | unknownArgument
  /-- A value that does not read as what it is for. -/
  | valueValidation
  /-- A missing or empty value, or one that is none of those possible. -/
  | invalidValue
  /-- An option or a switch that may be given once is given again. -/
  | argumentConflict
  | tooManyValues
  | displayHelp
  | displayVersion
  deriving DecidableEq

structure Flags where
  file : Option String := none
  endpoint : Option Network.Endpoint := none
  interface : Option Network.Ipv4 := none
  /-- The universes in the order in which they were given. -/
  universes : List UniverseId := []
  timeoutMs : Option Nat := none
  format : Option Format := none
  noMulticast : Bool := false
  noColor : Bool := false
  verbose : Bool := false
  deriving DecidableEq

namespace Flags

/-- The wishes that flags make. Universes replace others only if there are any. -/
def wishes (f : Flags) : Wishes where
  endpoint := f.endpoint
  interface := f.interface
  multicast := if f.noMulticast then some false else none
  universes := if f.universes.isEmpty then none else some f.universes
  timeoutMs := f.timeoutMs
  format := f.format

/-- A value as a universe: a number from 0 to 65535 with at most one sign. -/
def readUniverse? (value : String) : Option UniverseId :=
  match value.toList with
  | '-' :: '+' :: _ => none
  | '-' :: rest => (Text.unsigned? 1 rest).map UInt16.ofNat
  | text => (Text.unsigned? 65536 text).map UInt16.ofNat

/-- A value that has to read as something. -/
def require {α : Type} (e : UsageError) (a : Option α) : Except UsageError α :=
  match a with
  | some a => .ok a
  | none => .error e

/-- Whether an option that may be given once has been given. -/
def hasOpt (f : Flags) : Opt → Bool
  | .config => f.file.isSome
  | .bindTo => f.endpoint.isSome
  | .interface => f.interface.isSome
  | .universeId => false
  | .timeoutMs => f.timeoutMs.isSome
  | .format => f.format.isSome

def setOpt (f : Flags) (o : Opt) (value : String) : Except UsageError Flags :=
  if f.hasOpt o then .error .argumentConflict
  else
    match o with
    | .config =>
      if value.isEmpty then .error .invalidValue else .ok { f with file := some value }
    | .bindTo => do
      let e ← require .valueValidation (Network.Endpoint.ofText? value)
      return { f with endpoint := some e }
    | .interface => do
      let ip ← require .valueValidation (Network.Ipv4.ofText? value)
      return { f with interface := some ip }
    | .universeId => do
      let u ← require .valueValidation (readUniverse? value)
      return { f with universes := f.universes ++ [u] }
    | .timeoutMs => do
      let n ← require .valueValidation (Text.unsigned? 18446744073709551616 value.toList)
      return { f with timeoutMs := some n }
    | .format => do
      let form ← require .invalidValue (Format.ofName? value)
      return { f with format := some form }

def setSwitch (f : Flags) : Switch → Except UsageError Flags
  | .noMulticast =>
    if f.noMulticast then .error .argumentConflict else .ok { f with noMulticast := true }
  | .noColor => if f.noColor then .error .argumentConflict else .ok { f with noColor := true }
  | .verbose => if f.verbose then .error .argumentConflict else .ok { f with verbose := true }
  | .help => .error .displayHelp
  | .version => .error .displayVersion

end Flags

/-- An option that was named, and its value once that has come. -/
structure Pending where
  opt : Opt
  value : Option String
  deriving DecidableEq

structure Progress where
  flags : Flags := {}
  /-- The option that has not been looked at yet. -/
  pending : Option Pending := none

namespace Progress

/-- The flags once the last option has been looked at. -/
def resolve (p : Progress) : Except UsageError Flags :=
  match p.pending with
  | none => .ok p.flags
  | some ⟨_, none⟩ => .error .invalidValue
  | some ⟨o, some value⟩ => p.flags.setOpt o value

/-- An option begins, with its value if that stands in the same argument. -/
def beginOpt (p : Progress) (o : Opt) (value : Option String) : Except UsageError Progress := do
  let flags ← p.resolve
  match value with
  | none => return ⟨flags, some ⟨o, none⟩⟩
  | some v => return ⟨← flags.setOpt o v, none⟩

def addSwitch (p : Progress) (s : Switch) : Except UsageError Progress := do
  return ⟨← (← p.resolve).setSwitch s, none⟩

/-- An argument with two dashes: a name, and behind an equals sign a value. -/
def takeLong (p : Progress) (text : List Char) : Except UsageError Progress :=
  let name := String.ofList (text.takeWhile (· ≠ '='))
  let value := match text.dropWhile (· ≠ '=') with
    | [] => none
    | _ :: rest => some (String.ofList rest)
  match longNames.lookup name with
  | none => .error .unknownArgument
  | some (.opt o) => p.beginOpt o value
  | some (.switch s) => if value.isSome then .error .tooManyValues else p.addSwitch s

/-- The letters behind one dash: switches, and at the end an option with the rest as its value. -/
def takeShort (p : Progress) : List Char → Except UsageError Progress
  | [] => .ok p
  | c :: rest =>
    match shortNames.lookup c with
    | none => .error .unknownArgument
    | some (.switch s) => do (← p.addSwitch s).takeShort rest
    | some (.opt o) =>
      p.beginOpt o (match rest with
        | [] => none
        | '=' :: value => some (String.ofList value)
        | value => some (String.ofList value))

/-- An argument that begins with no dash: the value of the option that waits for one. -/
def takePlain (p : Progress) (value : String) : Except UsageError Progress :=
  match p.pending with
  | some ⟨o, none⟩ => .ok { p with pending := some ⟨o, some value⟩ }
  | _ => .error .unknownArgument

end Progress

/-- Read the arguments that follow. Behind two dashes alone no argument is known. -/
def Progress.takeAll (p : Progress) : List String → Except UsageError Progress
  | [] => .ok p
  | arg :: rest =>
    match arg.toList with
    | ['-', '-'] => if rest.isEmpty then .ok p else .error .unknownArgument
    | '-' :: '-' :: text => do (← p.takeLong text).takeAll rest
    | '-' :: c :: text => do (← p.takeShort (c :: text)).takeAll rest
    | _ => do (← p.takePlain arg).takeAll rest

/-- What the arguments say, or why they are refused. -/
def Flags.parse (args : List String) : Except UsageError Flags := do
  (← ({} : Progress).takeAll args).resolve

end StreamingAcn.Monitor
