/-
StreamingAcn.Proofs.Delivery.Moves — what an action of a worker amounts to.

A worker has five moves of its own and two ways to get rid of an item. Seen from the steps that it
was offered and from what has gone out, each of them is one of three things: nothing at all, the
next step is handled and counted, or an item goes out. This holds of every worker that does not
discard the step it has taken, whether others still offer it steps or not.

Definitions:

* `Worker.Keeps`: a worker that does not discard the step it has taken;
* `Pipeline.Deed`: the three things that an action can amount to;
* `Pipeline.Conveys`: some steps are handled or pending, and what came of them is out or in hand.

Main statements:

* `flags_move?`: what no move changes;
* `deed_of_act?`: an action of a worker that keeps its steps is a deed;
* `Conveys.deed`: a deed keeps the account of the steps.
-/
import StreamingAcn.Proofs.Delivery.Flow

namespace StreamingAcn.Delivery

open Arbitration (Arbiter Verdict)

namespace Worker

variable {w v : Worker} {verdict : Option Verdict}

/-- A worker that does not discard the step it has taken. -/
def Keeps (w : Worker) : Prop := ∀ s, w.phase = .taken s → w.isActive = true

theorem keeps_of_active (h : w.isActive = true) : w.Keeps := fun _ _ => h

/-- No move changes whether the worker is active or held, or makes its queue longer. -/
theorem flags_move? (h : w.move? = some (v, verdict)) :
    v.isActive = w.isActive ∧ v.isHeld = w.isHeld ∧ v.queue.length ≤ w.queue.length ∧
      (v.isFinished = true → v.queue = []) := by
  rcases move?_cases h with ⟨s, rest, hp, hq, rfl, -⟩ | ⟨hp, hq, -, rfl, -⟩ | ⟨s, hp, -, rfl, -⟩ |
    ⟨s, hp, -, rfl, -⟩ | ⟨s, hp, rfl, -⟩
  · refine ⟨rfl, rfl, ?_, ?_⟩
    · rw [hq]
      exact Nat.le_succ _
    · intro hf
      simp [isFinished] at hf
  · exact ⟨rfl, rfl, Nat.le_refl _, fun _ => hq⟩
  · refine ⟨rfl, rfl, Nat.le_refl _, ?_⟩
    intro hf
    simp [isFinished] at hf
  · exact ⟨rfl, rfl, Nat.zero_le _, fun _ => rfl⟩
  · refine ⟨rfl, rfl, Nat.le_refl _, ?_⟩
    intro hf
    rw [going_handle] at hf
    cases hf

/-- A worker that nobody holds any more and that can do nothing is done. -/
theorem finished_of_released (hh : w.isHeld = false) (hm : w.move? = none) (hi : w.item? = none) :
    w.isFinished = true := by
  rcases still_cases hm hi with ⟨-, -, hheld⟩ | hf
  · rw [hh] at hheld
    cases hheld
  · exact hf

/-- A worker that is done has nothing to handle and nothing to get rid of. -/
theorem idle_of_finished (hf : w.isFinished = true) (hq : w.queue = []) :
    w.pending = [] ∧ w.item? = none := by
  have hphase : w.phase = .finished := by simpa [isFinished] using hf
  exact ⟨by simp [pending, hphase, hq], by simp [item?, hphase]⟩

/-- A worker that can do nothing has handled every step, unless it was done before. -/
theorem pending_of_still (hq : w.isFinished = true → w.queue = []) (hm : w.move? = none)
    (hi : w.item? = none) : w.pending = [] := by
  rcases still_cases hm hi with ⟨hp, hqueue, -⟩ | hf
  · simp [pending, hp, hqueue]
  · exact (idle_of_finished hf (hq hf)).1

/-- A worker that holds an item holds none once it has got rid of it. -/
theorem sent_spec {i : Item} (h : w.item? = some i) :
    w.sent.pending = w.pending ∧ w.sent.item? = none := by
  unfold item? at h
  split at h
  · next j hp => exact ⟨by simp [pending, sent, hp], rfl⟩
  · cases h

end Worker

namespace Outlet

variable {o o' : Outlet} {i : Item}

theorem Passed.trans {m : Outlet} {xs ys : List Item} (h : Passed o m xs) (h' : Passed m o' ys) :
    Passed o o' (xs ++ ys) := by
  constructor
  · rw [h'.packets, h.packets, List.filterMap_append, List.append_assoc]
  · rw [h'.reports, h.reports, List.filterMap_append, List.append_assoc]

theorem counters_put? (h : o.put? i = some o') : o'.counters = o.counters := by
  cases i with
  | packet p =>
    obtain ⟨t, -, rfl⟩ := Option.map_eq_some_iff.1 h
    rfl
  | report r =>
    obtain ⟨t, -, rfl⟩ := Option.map_eq_some_iff.1 h
    rfl

theorem counters_handOver? (h : o.handOver? i = some o') : o'.counters = o.counters := by
  cases i with
  | packet p =>
    obtain ⟨t, -, rfl⟩ := Option.map_eq_some_iff.1 h
    rfl
  | report r =>
    obtain ⟨t, -, rfl⟩ := Option.map_eq_some_iff.1 h
    rfl

end Outlet

namespace Pipeline

variable {p q : Pipeline} {a : Action}

/-- What an action of a worker amounts to. -/
inductive Deed (p q : Pipeline) : Prop
  /-- The worker takes a step, looks whether it is active, or is done. -/
  | nothing (hpending : q.worker.pending = p.worker.pending)
      (hitem : q.worker.item? = p.worker.item?) (harbiter : q.worker.arbiter = p.worker.arbiter)
      (houtlet : q.outlet = p.outlet)
  | handles (s : Step) (hpending : p.worker.pending = s :: q.worker.pending)
      (hfree : p.worker.item? = none) (hitem : q.worker.item? = p.worker.arbiter.item? s)
      (harbiter : q.worker.arbiter = p.worker.arbiter.next s)
      (houtlet : q.outlet = counted p.outlet (some (p.worker.arbiter.verdict s)))
  | sends (i : Item) (hpending : q.worker.pending = p.worker.pending)
      (hheld : p.worker.item? = some i) (hfree : q.worker.item? = none)
      (harbiter : q.worker.arbiter = p.worker.arbiter)
      (hpassed : Outlet.Passed p.outlet q.outlet [i])
      (hcounters : q.outlet.counters = p.outlet.counters)

/-- What a worker does is a deed, unless it discards a step. -/
theorem deed_of_act? (hk : p.worker.Keeps) (hf : p.outlet.Fits) (ha : a ∈ own)
    (h : p.act? a = some q) : Deed p q := by
  rcases outlet_act? ha h with ⟨verdict, hm, ho⟩ | ⟨i, hi, hw, ho⟩
  · rcases Worker.move?_cases hm with ⟨s, rest, hp, hq, hv, rfl⟩ | ⟨hp, hq, -, hv, rfl⟩ |
      ⟨s, hp, -, hv, rfl⟩ | ⟨s, hp, hactive, -, -⟩ | ⟨s, hp, hv, rfl⟩
    · refine .nothing ?_ ?_ ?_ ho <;> simp [hv, Worker.pending, Worker.item?, hp, hq]
    · refine .nothing ?_ ?_ ?_ ho <;> simp [hv, Worker.pending, Worker.item?, hp]
    · refine .nothing ?_ ?_ ?_ ho <;> simp [hv, Worker.pending, Worker.item?, hp]
    · rw [hk s hp] at hactive
      cases hactive
    · obtain ⟨hpending, hitem, harbiter, hverdict⟩ := p.worker.handle_spec s
      rw [← hv] at hpending hitem harbiter
      rw [hverdict] at ho
      refine .handles s ?_ ?_ hitem harbiter ho
      · rw [hpending]
        simp [Worker.pending, hp]
      · simp [Worker.item?, hp]
  · obtain ⟨hpending, hfree⟩ := Worker.sent_spec hi
    rw [← hw] at hpending hfree
    have harbiter : q.worker.arbiter = p.worker.arbiter := by rw [hw]; rfl
    rcases ho with ho | ho
    · exact .sends i hpending hi hfree harbiter (Outlet.passed_put? ho) (Outlet.counters_put? ho)
    · exact .sends i hpending hi hfree harbiter (Outlet.passed_handOver? hf ho)
        (Outlet.counters_handOver? ho)

/-- No action of a worker changes whether it is active or held, or makes its queue longer. -/
theorem flags_act? (ha : a ∈ own) (h : p.act? a = some q) :
    q.worker.isActive = p.worker.isActive ∧ q.worker.isHeld = p.worker.isHeld ∧
      q.worker.queue.length ≤ p.worker.queue.length ∧
      (q.worker.isFinished = true → q.worker.queue = []) := by
  rcases outlet_act? ha h with ⟨verdict, hm, -⟩ | ⟨i, -, hw, -⟩
  · exact Worker.flags_move? hm
  · rw [hw]
    refine ⟨rfl, rfl, Nat.le_refl _, ?_⟩
    intro hf
    simp [Worker.sent, Worker.isFinished] at hf

theorem fits_act? (hf : p.outlet.Fits) (ha : a ∈ own) (h : p.act? a = some q) :
    q.outlet.Fits := by
  rcases outlet_act? ha h with ⟨verdict, -, ho⟩ | ⟨i, -, -, ho | ho⟩
  · cases verdict <;> exact ho ▸ hf
  · exact Outlet.fits_put? hf ho
  · exact Outlet.fits_handOver? hf ho

/-! ## What becomes of the steps -/

/-- Where an arbiter was to judge some steps, they are handled or pending, and what it puts out on
the handled ones has gone through the outlet or is in the hand of the worker. -/
structure Conveys (arbiter : Arbiter) (o : Outlet) (steps : List Step) (p : Pipeline) : Prop where
  fits : p.outlet.Fits
  account : ∃ handled out, steps = handled ++ p.worker.pending ∧
    arbiter.items handled = out ++ p.worker.item?.toList ∧ Outlet.Passed o p.outlet out ∧
    p.worker.arbiter = arbiter.after handled

variable {arbiter : Arbiter} {o : Outlet} {steps : List Step}

theorem Conveys.deed (h : Conveys arbiter o steps p) (hf : q.outlet.Fits) (hd : Deed p q) :
    Conveys arbiter o steps q := by
  obtain ⟨handled, out, hsteps, hitems, hpassed, hknows⟩ := h.account
  refine ⟨hf, ?_⟩
  cases hd with
  | nothing hpending hitem harbiter houtlet =>
    refine ⟨handled, out, ?_, ?_, ?_, harbiter.trans hknows⟩
    · rw [hsteps, hpending]
    · rw [hitems, hitem]
    · rw [houtlet]
      exact hpassed
  | handles s hpending hfree hitem harbiter houtlet =>
    refine ⟨handled ++ [s], out, ?_, ?_, ?_, ?_⟩
    · rw [hsteps, hpending, List.append_assoc, List.singleton_append]
    · rw [Arbiter.items_append, hitems, hfree, hitem, hknows]
      simp [Arbiter.items_cons]
    · rw [houtlet]
      exact ⟨hpassed.packets, hpassed.reports⟩
    · rw [harbiter, hknows, Arbiter.after_append]
      rfl
  | sends i hpending hheld hfree harbiter hpassed' hcounters =>
    refine ⟨handled, out ++ [i], ?_, ?_, hpassed.trans hpassed', harbiter.trans hknows⟩
    · rw [hsteps, hpending]
    · rw [hitems, hheld, hfree]
      simp

/-- Where the worker is as it was, it does not matter what the consumer has received. -/
theorem Conveys.carry (h : Conveys arbiter o steps p) (hf : q.outlet.Fits) (hw : q.worker = p.worker)
    (hp : q.outlet.packets.flow = p.outlet.packets.flow)
    (hr : q.outlet.reports.flow = p.outlet.reports.flow) : Conveys arbiter o steps q := by
  obtain ⟨handled, out, hsteps, hitems, hpassed, hknows⟩ := h.account
  rw [← hw] at hsteps hitems hknows
  exact ⟨hf, handled, out, hsteps, hitems, ⟨hp.trans hpassed.packets, hr.trans hpassed.reports⟩,
    hknows⟩

/-- A step that gets into the queue is pending. -/
theorem Conveys.queued (h : Conveys arbiter o steps p) {s : Step}
    (hw : q.worker = { p.worker with queue := p.worker.queue ++ [s] })
    (hp : q.outlet.packets = p.outlet.packets) (hr : q.outlet.reports = p.outlet.reports) :
    Conveys arbiter o (steps ++ [s]) q := by
  obtain ⟨handled, out, hsteps, hitems, hpassed, hknows⟩ := h.account
  refine ⟨h.fits.of_sinks hp hr, handled, out, ?_, ?_, ?_, ?_⟩
  · rw [hw, Worker.pending_queued, hsteps, List.append_assoc]
  · rw [hw, hitems]
    rfl
  · exact ⟨hp ▸ hpassed.packets, hr ▸ hpassed.reports⟩
  · rw [hw]
    exact hknows

/-- Once nothing is pending or in hand, everything has gone through the outlet. -/
theorem Conveys.passed (h : Conveys arbiter o steps p) (hpending : p.worker.pending = [])
    (hitem : p.worker.item? = none) : Outlet.Passed o p.outlet (arbiter.items steps) := by
  obtain ⟨handled, out, hsteps, hitems, hpassed, -⟩ := h.account
  rw [hpending, List.append_nil] at hsteps
  rw [hitem, Option.toList_none, List.append_nil] at hitems
  rw [hsteps, hitems]
  exact hpassed

end Pipeline

end StreamingAcn.Delivery
