/-
StreamingAcn.Proofs.Roster.Chronicle — the spans in which a universe was active.

What the calls of a roster say about one universe can be told without the roster: when the universe
became active, which steps were dispatched while it was, and when it was active no longer. A
chronicle tells this, and what the universe should put out is what an arbiter of its own would put
out in each of the spans.

Definitions:

* `Period`, `Chronicle`: a span of activity, and all of them up to now;
* `chronicle`: the chronicle of a universe after some calls;
* `Chronicle.items`: what arbiters of their own put out, one for each span.
-/
import StreamingAcn.Proofs.Roster.Run

namespace StreamingAcn.Roster

open Arbitration (Arbiter)
open Delivery (Item Step)

/-- A span in which a universe was active: when it began, and the steps dispatched in it. -/
structure Period where
  since : Nat
  steps : List Step

/-- What an arbiter that starts with the span and sees its steps puts out. -/
def Period.items (u : UniverseId) (timeout : Nat) (p : Period) : List Item :=
  (Arbiter.start u timeout p.since).items p.steps

/-- The arbiter at the end of the span. -/
def Period.arbiter (u : UniverseId) (timeout : Nat) (p : Period) : Arbiter :=
  (Arbiter.start u timeout p.since).after p.steps

/-- The spans of a universe that are over, and the one that is not. -/
structure Chronicle where
  past : List Period := []
  present : Option Period := none

namespace Chronicle

/-- All spans, oldest first. -/
def periods (c : Chronicle) : List Period := c.past ++ c.present.toList

def items (u : UniverseId) (timeout : Nat) (c : Chronicle) : List Item :=
  c.periods.flatMap (Period.items u timeout)

/-- The universe is active no longer. -/
def close (c : Chronicle) : Chronicle := ⟨c.periods, none⟩

/-- The universe is active from now on. -/
def begin (c : Chronicle) (now : Nat) : Chronicle := ⟨c.periods, some ⟨now, []⟩⟩

/-- A step is dispatched. It concerns the universe only while it is active. -/
def extend (c : Chronicle) (s : Step) : Chronicle :=
  { c with present := c.present.map fun p => { p with steps := p.steps ++ [s] } }

/-- What a call says about a universe. -/
def record (u : UniverseId) (c : Chronicle) : Event → Chronicle
  | .activate v now (.ok true) => if v = u then c.begin now else c
  | .activate _ _ _ => c
  | .deactivate v _ => if v = u then c.close else c
  | .dispatch packet now _ => c.extend (stepFor packet now u)
  | .shutdown => c.close

theorem close_of_none {c : Chronicle} (h : c.present = none) : c.close = c := by
  obtain ⟨past, present⟩ := c
  obtain rfl : present = none := h
  simp [close, periods]

variable {u : UniverseId} {timeout : Nat} {c : Chronicle}

@[simp] theorem items_close : c.close.items u timeout = c.items u timeout := by
  simp [items, close, periods]

@[simp] theorem items_begin (now : Nat) :
    (c.begin now).items u timeout = c.items u timeout := by
  simp [items, begin, periods, Period.items]

theorem extend_of_none (h : c.present = none) (s : Step) : c.extend s = c := by
  obtain ⟨past, present⟩ := c
  obtain rfl : present = none := h
  rfl

/-- A step makes the arbiter of the present span put out its item. -/
theorem items_extend {p : Period} (h : c.present = some p) (s : Step) :
    (c.extend s).items u timeout =
      c.items u timeout ++ ((p.arbiter u timeout).item? s).toList := by
  obtain ⟨past, present⟩ := c
  obtain rfl : present = some p := h
  simp [items, extend, periods, Period.items, Period.arbiter, Arbiter.items_append,
    Arbiter.items_cons]

end Chronicle

/-- The chronicle of a universe after some calls. -/
def chronicle (u : UniverseId) (log : List Event) : Chronicle := log.foldl (Chronicle.record u) {}

theorem chronicle_concat (u : UniverseId) (log : List Event) (e : Event) :
    chronicle u (log ++ [e]) = (chronicle u log).record u e := by
  rw [chronicle, List.foldl_append]
  rfl

end StreamingAcn.Roster
