/-
StreamingAcn.Monitor.Line — the lines that the monitor prints.

Every packet and every report becomes one line, for people or as a JSON object, and a summary of
the counters ends the output. Lines for people show the first 16 slots and can be painted; they do
not show the name of the source.
-/
import StreamingAcn.Counters
import StreamingAcn.Delivery.Item
import StreamingAcn.Monitor.Format
import StreamingAcn.Text.JsonLine
import StreamingAcn.Text.Painted

namespace StreamingAcn.Monitor

open Delivery (Report)
open Text (JsonLine.Member Style)

/-- How many slots a line for people shows. -/
def previewSlots : Nat := 16

/-- A number aligned to the right in three columns. -/
def column (n : Nat) : String :=
  let digits := Nat.toDigits 10 n
  String.ofList (List.replicate (3 - digits.length) ' ' ++ digits)

/-- The beginning of a line for people: when, and which universe. -/
def heading (isPainted : Bool) (timestamp : String) (u : UniverseId) : String :=
  Style.dimmed.paint isPainted s!"[{timestamp}]" ++ " " ++
    Style.boldCyan.paint isPainted s!"u{u.toNat}"

/-- The first slots, and a mark where there are more. -/
def preview (slots : Octets) : String :=
  " ".intercalate ((slots.take previewSlots).map fun b => column b.toNat) ++
    if previewSlots < slots.length then " ..." else ""

def packetText (isPainted : Bool) (timestamp : String) (p : Packet) : String :=
  s!"{heading isPainted timestamp p.universeId} {Style.yellow.paint isPainted p.cid.text} " ++
    s!"prio={p.priority.toNat} seq={p.sequenceNumber.toNat} slots={p.slots.length} " ++
    s!"[{preview p.slots}]"

def packetMembers (timestamp : String) (p : Packet) : List Text.JsonLine.Member :=
  [ ("timestamp", .text timestamp),
    ("universe", .number p.universeId.toNat),
    ("cid", .text p.cid.text),
    ("source", .text p.sourceName),
    ("priority", .number p.priority.toNat),
    ("sequence", .number p.sequenceNumber.toNat),
    ("slots", .number p.slots.length),
    ("data", .numbers (p.slots.map (·.toNat))) ]

def packetLine (format : Format) (isPainted : Bool) (timestamp : String) (p : Packet) : String :=
  match format with
  | .text => packetText isPainted timestamp p
  | .json => Text.JsonLine.write (packetMembers timestamp p)

def reportText (isPainted : Bool) (timestamp : String) (r : Report) : String :=
  s!"{heading isPainted timestamp r.universeId} {Style.red.paint isPainted r.trouble.text}"

def reportMembers (timestamp : String) (r : Report) : List Text.JsonLine.Member :=
  [ ("timestamp", .text timestamp),
    ("universe", .number r.universeId.toNat),
    ("error", .text r.trouble.text) ]

def reportLine (format : Format) (isPainted : Bool) (timestamp : String) (r : Report) : String :=
  match format with
  | .text => reportText isPainted timestamp r
  | .json => Text.JsonLine.write (reportMembers timestamp r)

/-- The counters in a line for people. -/
def summaryText (c : Counters) : String :=
  s!"received={c.datagramsReceived.toNat} invalid={c.datagramsInvalid.toNat} " ++
    s!"unmatched={c.packetsUnmatched.toNat} emitted={c.dataEmitted.toNat} " ++
    s!"unchanged={c.dataUnchanged.toNat} dropped={c.packetsDropped.toNat} " ++
    s!"overflows={c.queueOverflows.toNat} stale={c.sequenceRejected.toNat} " ++
    s!"conflicts={c.conflicts.toNat} timeouts={c.timeouts.toNat}"

def summaryMembers (c : Counters) : List Text.JsonLine.Member :=
  [ ("datagrams_received", .number c.datagramsReceived.toNat),
    ("bytes_received", .number c.bytesReceived.toNat),
    ("datagrams_invalid", .number c.datagramsInvalid.toNat),
    ("packets_unmatched", .number c.packetsUnmatched.toNat),
    ("data_emitted", .number c.dataEmitted.toNat),
    ("data_unchanged", .number c.dataUnchanged.toNat),
    ("packets_dropped", .number c.packetsDropped.toNat),
    ("queue_overflows", .number c.queueOverflows.toNat),
    ("sequence_rejected", .number c.sequenceRejected.toNat),
    ("conflicts", .number c.conflicts.toNat),
    ("timeouts", .number c.timeouts.toNat) ]

def summaryLine (format : Format) (c : Counters) : String :=
  match format with
  | .text => summaryText c
  | .json => Text.JsonLine.write (summaryMembers c)

end StreamingAcn.Monitor
