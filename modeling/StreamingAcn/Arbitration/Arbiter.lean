/-
StreamingAcn.Arbitration.Arbiter — the judge of one universe.

An arbiter takes one step at a time: a packet, or word that none came. It accepts packets of the
single source of highest credit, in the order of their sequence numbers, and passes on those that
change the data. Steps that bring it nothing tell it when the universe has fallen silent.

Definitions:

* `Verdict`: what a step amounts to;
* `Arbiter.judge`: the verdict on a packet and the arbiter after it;
* `Arbiter.handle`: the same for a step with or without a packet.
-/
import StreamingAcn.Arbitration.Numbering
import StreamingAcn.Arbitration.Standing
import StreamingAcn.Packet.Basic

namespace StreamingAcn.Arbitration

/-- What a step amounts to. -/
inductive Verdict
  /-- The packet is accepted and changes the data. -/
  | emitted
  /-- The packet is accepted and repeats the data. -/
  | unchanged
  /-- Several sources share the highest credit. -/
  | conflict
  /-- The packet is from a source without the highest credit. -/
  | dropped
  /-- The packet is from the winning source, but late or repeated. -/
  | stale
  /-- No packet, and none accepted for more than the timeout. -/
  | timedOut
  /-- No packet, but one accepted within the timeout. -/
  | idle
  deriving DecidableEq

/-- The state of one universe. -/
structure Arbiter where
  universeId : UniverseId
  /-- How long a source, a credit or the universe lasts without a packet. -/
  timeout : Nat
  sources : SourceTable
  lastSequence : Option UInt8
  lastSlots : Octets
  /-- When a packet was last accepted, or when the arbiter started. -/
  lastTime : Nat
  deriving DecidableEq

namespace Arbiter

def start (universeId : UniverseId) (timeout : Nat) (now : Nat) : Arbiter where
  universeId := universeId
  timeout := timeout
  sources := Directory.empty
  lastSequence := none
  lastSlots := []
  lastTime := now

/-- Whether a packet is for this universe and carries dimmer levels. Others count as no packet. -/
def concerns (a : Arbiter) (p : Packet) : Bool := p.universeId = a.universeId && p.startCode = 0

def hear (a : Arbiter) (p : Packet) (now : Nat) : Arbiter :=
  { a with sources := SourceTable.hear a.sources a.timeout p.cid p.priority now }

def isStale (a : Arbiter) (p : Packet) : Bool :=
  match a.lastSequence with
  | none => false
  | some last => Arbitration.isStale last p.sequenceNumber

def accept (a : Arbiter) (p : Packet) (now : Nat) : Arbiter :=
  { a with lastSequence := some p.sequenceNumber, lastSlots := p.slots, lastTime := now }

/-- The verdict on a packet of this universe and the arbiter after it. -/
def judge (a : Arbiter) (p : Packet) (now : Nat) : Verdict × Arbiter :=
  let heard := a.hear p now
  let winners := SourceTable.winners heard.sources
  if 1 < winners.length then (.conflict, heard)
  else if p.cid ∉ winners then (.dropped, heard)
  else if heard.isStale p then (.stale, heard)
  else (if heard.lastSlots = p.slots then .unchanged else .emitted, heard.accept p now)

/-- The verdict on a step that brings the universe nothing. -/
def silence (a : Arbiter) (now : Nat) : Verdict :=
  if lapsed a.timeout a.lastTime now then .timedOut else .idle

def handle (a : Arbiter) (packet : Option Packet) (now : Nat) : Verdict × Arbiter :=
  match packet with
  | some p => if a.concerns p then a.judge p now else (a.silence now, a)
  | none => (a.silence now, a)

end Arbiter

end StreamingAcn.Arbitration
