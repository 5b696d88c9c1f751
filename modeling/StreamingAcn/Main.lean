/-
StreamingAcn.Main — the monitor's command line.

The monitor takes datagrams from its standard input, one line of hexadecimal digits each; an empty
line stands for a read that ended without a datagram. It prints a line for every change of a
watched universe and for every trouble with one, and a summary at the end.
-/
import StreamingAcn.Monitor.Launch
import StreamingAcn.Monitor.Line
import StreamingAcn.Receiver

namespace StreamingAcn.Monitor

def usage : String :=
  "\n".intercalate
    [ "Print merged universe data and receive errors",
      "",
      "Options:",
      "  -c, --config PATH        plan file (flags override what it says)",
      "  -b, --bind ADDRESS       local bind address",
      "  -i, --interface ADDRESS  interface for multicast membership",
      "  -u, --universe NUMBER    universe to activate (can repeat)",
      "  -t, --timeout-ms NUMBER  source and universe timeout in milliseconds",
      "  -f, --format FORMAT      text or json",
      "      --no-multicast       do not join multicast groups",
      "      --no-color           disable colored output",
      "  -v, --verbose            verbose logging",
      "  -h, --help               print help",
      "  -V, --version            print version" ]

def UsageError.message : UsageError → String
  | .unknownArgument => "unexpected argument"
  | .valueValidation => "invalid value for an option"
  | .invalidValue => "missing or impossible value for an option"
  | .argumentConflict => "an argument cannot be used multiple times"
  | .tooManyValues => "unexpected value for a switch"
  | .displayHelp => usage
  | .displayVersion => "sacn-monitor 0.3.0"

/-- What a line of input brings. Lines that are not hexadecimal bring nothing at all. -/
def readingOfLine (line : String) : Reading :=
  match line.toList.filter (fun c => !c.isWhitespace) with
  | [] => .nothing
  | digits =>
    match Octets.ofHex? digits with
    | some octets => .datagram octets
    | none => .interrupted

/-- A number of nanoseconds as seconds with three decimal places. -/
def secondsText (nanoseconds : Nat) : String :=
  let ms := nanoseconds / millisecond
  let places := Nat.toDigits 10 (ms % 1000)
  s!"{ms / 1000}." ++ String.ofList (List.replicate (3 - places.length) '0' ++ places)

/-- The lines for what a consumer has received. -/
def receivedLines (format : Format) (isPainted : Bool) (timestamp : String)
    (o : Delivery.Outlet) : List String :=
  o.packets.received.map (packetLine format isPainted timestamp) ++
    o.reports.received.map (reportLine format isPainted timestamp)

/-- The receiver with the universes of a plan active, or the first that cannot be activated. -/
def activateAll (now : Nat) :
    Receiver → List UniverseId → Except (UniverseId × ReceiverError) Receiver
  | r, [] => .ok r
  | r, u :: rest =>
    match (r.activation u).result with
    | .error e => .error (u, e)
    | .ok _ => activateAll now (r.activate u now) rest

/-- What reading the file that flags name gives. -/
def readPlanFile (flags : Flags) : IO PlanFile.Content := do
  match flags.file with
  | none => return .missing
  | some path =>
    try
      return .octets (← IO.FS.readBinFile path).toList
    catch e =>
      match e with
      | .noFileOrDirectory .. => return .missing
      | e => return .unreadable (toString e)

/-- Take the lines of the input until it ends. -/
partial def watch (plan : Plan) (isPainted : Bool) (input output : IO.FS.Stream) (began : Nat)
    (receiver : Receiver) : IO Receiver := do
  let line ← input.getLine
  if line.isEmpty then return receiver
  let now := (← IO.monoNanosNow) - began
  let after := (receiver.read (readingOfLine line) now).settle
  for text in receivedLines plan.format isPainted (secondsText now) after.roster.outlet do
    output.putStrLn text
  output.flush
  watch plan isPainted input output began after.cleared

def run (flags : Flags) (plan : Plan) : IO UInt32 := do
  let output ← IO.getStdout
  let isPainted := !flags.noColor && (← output.isTty)
  match Receiver.start plan.settings with
  | .error e =>
    IO.eprintln s!"Error: Failed to bind {plan.endpoint.text}: {e.message}"
    return 1
  | .ok started =>
    match activateAll 0 started plan.universes with
    | .error (u, e) =>
      IO.eprintln s!"Error: Failed to activate universe {u.toNat}: {e.message}"
      return 1
    | .ok ready =>
      let done ← watch plan isPainted (← IO.getStdin) output (← IO.monoNanosNow) ready
      let counters := done.stop.settle.roster.counters
      IO.eprintln s!"Stopped: {summaryLine .text counters}"
      if plan.format = .json then output.putStrLn (summaryLine .json counters)
      return 0

end StreamingAcn.Monitor

open StreamingAcn.Monitor in
def main (args : List String) : IO UInt32 := do
  match Flags.parse args with
  | .error e =>
    let isAnswer := e = .displayHelp || e = .displayVersion
    if isAnswer then IO.println e.message else IO.eprintln s!"error: {e.message}"
    return if isAnswer then 0 else 2
  | .ok flags =>
    let content ← readPlanFile flags
    match flags.launch (fun _ => content) with
    | .error e =>
      IO.eprintln s!"Error: {e.context}: {e.message}"
      return 1
    | .ok plan => run flags plan
