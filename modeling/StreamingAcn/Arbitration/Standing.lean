/-
StreamingAcn.Arbitration.Standing — who may speak on a universe.

Every source heard on a universe has a standing: when it was last heard, and the priority it is
credited with. A source that lowers its priority keeps the higher credit for one timeout after it
last sent it. The sources of highest credit win; a universe is only served while one source does.

Definitions:

* `Standing.hear`: the standing of a source after another packet of it;
* `SourceTable.hear`: the table after a packet, without the sources that fell silent;
* `SourceTable.winners`: the sources of highest credit.
-/
import StreamingAcn.Cid
import StreamingAcn.Directory
import StreamingAcn.Lapse

namespace StreamingAcn.Arbitration

/-- What is known of one source on one universe. -/
structure Standing where
  /-- When the source was last heard, at whatever priority. -/
  heardAt : Nat
  /-- When the source last sent the priority it is credited with. -/
  creditedAt : Nat
  /-- The priority the source is credited with. -/
  credit : UInt8
  deriving DecidableEq

namespace Standing

def first (priority : UInt8) (now : Nat) : Standing := ⟨now, now, priority⟩

/-- Whether the source has been silent for more than the timeout. -/
def isSilent (s : Standing) (timeout : Nat) (now : Nat) : Bool := lapsed timeout s.heardAt now

/--
The standing after another packet. A priority at or above the credit becomes the credit at once,
a lower one only when the credit has not been sent for more than the timeout.
-/
def hear (s : Standing) (timeout : Nat) (priority : UInt8) (now : Nat) : Standing :=
  if s.credit ≤ priority ∨ lapsed timeout s.creditedAt now then first priority now
  else { s with heardAt := now }

end Standing

abbrev SourceTable := Directory Cid Standing

namespace SourceTable

/--
The table after a packet of a source. Other sources that have been silent for more than the
timeout are forgotten; the sender is not, whatever its silence before this packet.
-/
def hear (t : SourceTable) (timeout : Nat) (sender : Cid) (priority : UInt8) (now : Nat) :
    SourceTable :=
  let heard := t.filter (fun cid s => cid = sender || !s.isSilent timeout now)
  let standing := match heard.find? sender with
    | some s => s.hear timeout priority now
    | none => Standing.first priority now
  heard.insert sender standing

/-- The highest credit in the table, 0 if it is empty. -/
def highestCredit (t : SourceTable) : UInt8 := t.values.foldl (fun best s => max best s.credit) 0

/-- The sources of highest credit, by increasing identifier. -/
def winners (t : SourceTable) : List Cid :=
  (t.filter (fun _ s => s.credit = t.highestCredit)).keys

end SourceTable

end StreamingAcn.Arbitration
