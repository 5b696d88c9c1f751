/-
StreamingAcn.Delivery.Item — what goes into a worker and what comes out of it.

A worker is fed steps and puts out items: packets that change the data of its universe, and
reports of trouble on it.
-/
import StreamingAcn.Arbitration.Arbiter

namespace StreamingAcn.Delivery

inductive Trouble
  /-- Nothing was accepted for more than the timeout. -/
  | timeout
  /-- Several sources share the highest credit. -/
  | sourcesExceeded
  deriving DecidableEq

def Trouble.text : Trouble → String
  | .timeout => "timeout"
  | .sourcesExceeded => "sources exceeded"

/-- Word that something is wrong with a universe. -/
structure Report where
  universeId : UniverseId
  trouble : Trouble
  deriving DecidableEq

def Report.message (r : Report) : String := s!"universe {r.universeId.toNat}: {r.trouble.text}"

/-- One step of a universe: the packet that came for it, if one did, and when. -/
structure Step where
  packet : Option Packet
  time : Nat
  deriving DecidableEq

inductive Item
  | packet (p : Packet)
  | report (r : Report)
  deriving DecidableEq

/-- What a worker puts out for a step on which its arbiter gave a verdict. -/
def Item.ofVerdict? (universeId : UniverseId) (step : Step) : Arbitration.Verdict → Option Item
  | .emitted => step.packet.map .packet
  | .conflict => some (.report ⟨universeId, .sourcesExceeded⟩)
  | .timedOut => some (.report ⟨universeId, .timeout⟩)
  | .unchanged | .dropped | .stale | .idle => none

end StreamingAcn.Delivery
