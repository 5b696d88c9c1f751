/-
StreamingAcn.ReceiverError — why a receiver refuses a request.

What goes wrong on a universe is no error of the receiver: it is reported with the data. These are
the refusals of requests; `ReceiverError.message` words them.
-/
import StreamingAcn.UniverseId

namespace StreamingAcn

inductive ReceiverError
  | io (cause : String)
  | invalidUniverse (universeId : UniverseId)
  | multicastJoin (universeId : UniverseId) (cause : String)
  | configuration (reason : String)
  | closed
  deriving DecidableEq

namespace ReceiverError

def message : ReceiverError → String
  | .io cause => s!"I/O error: {cause}"
  | .invalidUniverse u => s!"invalid universe {u.toNat} (valid range 1..=63999)"
  | .multicastJoin u cause =>
    s!"failed to join multicast group {(UniverseId.group u).text} for universe {u.toNat}: {cause}"
  | .configuration reason => s!"invalid configuration: {reason}"
  | .closed => "receiver is closed"

/-- The failure of the system below that led to the refusal, where one did. -/
def cause? : ReceiverError → Option String
  | .io cause => some cause
  | .multicastJoin _ cause => some cause
  | .invalidUniverse _ | .configuration _ | .closed => none

end ReceiverError

def UniverseId.check (u : UniverseId) : Except ReceiverError Unit :=
  if UniverseId.isData u then .ok () else .error (.invalidUniverse u)

end StreamingAcn
