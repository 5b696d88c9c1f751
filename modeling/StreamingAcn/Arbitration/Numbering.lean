/-
StreamingAcn.Arbitration.Numbering — telling newer packets from older ones.

A sender numbers its packets modulo 256. A number at most 19 behind the last accepted one marks
the packet as out of order or as a repetition; one further behind is taken for a new count.
-/

namespace StreamingAcn.Arbitration

/-- How far behind the last accepted number a packet may be before it counts as new again. -/
def wrapWindow : UInt8 := 20

/-- Whether number `next` is at or shortly behind the last accepted number, modulo 256. -/
def isStale (last next : UInt8) : Bool := last - next < wrapWindow

theorem isStale_self (n : UInt8) : isStale n n = true := by simp [isStale, wrapWindow]

end StreamingAcn.Arbitration
