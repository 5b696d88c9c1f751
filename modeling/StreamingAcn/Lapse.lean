/-
StreamingAcn.Lapse — when a span of time has passed.

Instants and timeouts are natural numbers of nanoseconds, instants after a zero that they share.
The time between two instants is 0 where the later one is named first, so a clock that steps back
makes nothing lapse.
-/

namespace StreamingAcn

/-- Whether more than `timeout` has passed from `since` to `now`. -/
def lapsed (timeout since now : Nat) : Bool := timeout < now - since

theorem lapsed_iff {timeout since now : Nat} :
    lapsed timeout since now = true ↔ since + timeout < now := by
  simp only [lapsed, decide_eq_true_eq]
  omega

end StreamingAcn
