/-
StreamingAcn.Monitor.Format — the two forms of the monitor's output.
-/

namespace StreamingAcn.Monitor

/-- The two forms of a line. -/
inductive Format
  | text
  | json
  deriving DecidableEq

def Format.name : Format → String
  | .text => "text"
  | .json => "json"

def Format.ofName? (name : String) : Option Format :=
  if name = "text" then some .text else if name = "json" then some .json else none

end StreamingAcn.Monitor
