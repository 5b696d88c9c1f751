/-
StreamingAcn.Proofs.Delivery.Flow — what has gone out of a worker and what it still owes.

A worker owes the items of the steps that it has taken on. Its moves may fall between those of
others in any order: whatever it puts out it no longer owes, and what it is going to know once it
has handled everything does not change. A worker that rests owes nothing.

Definitions:

* `Arbiter.items`: what a run of steps makes an arbiter put out;
* `Worker.due`, `Worker.eventual`: what a worker owes, and its arbiter once that is paid;
* `Outlet.Passed`: some items have gone through an outlet.

Main statements:

* `move?_cases`: the five moves of a worker;
* `outlet_act?`: an action counts a verdict or puts an item out, and lets go of the worker's hand
  on a handler when it is done;
* `act?_due`: what an action of a serving worker puts out is what it owed first;
* `rested`: a serving worker that cannot act has handled every step;
* `due_offer_of_rested`: a step that is offered to it then makes it owe the item of that step.
-/
import StreamingAcn.Delivery.Pipeline
import StreamingAcn.Proofs.Arbitration.Run

namespace StreamingAcn

open Delivery (Item Report Step)

/-! ## Items -/

namespace Delivery.Item

/-- The universe that an item is about. -/
def universeId : Item → UniverseId
  | packet p => p.universeId
  | report r => r.universeId

def packet? : Item → Option Packet
  | packet p => some p
  | report _ => none

def report? : Item → Option Report
  | packet _ => none
  | report r => some r

end Delivery.Item

namespace Arbitration.Arbiter

/-- What a step makes an arbiter put out. -/
def item? (a : Arbiter) (s : Step) : Option Item := Item.ofVerdict? a.universeId s (a.verdict s)

/-- What some steps make an arbiter put out, one after the other. -/
def items (a : Arbiter) : List Step → List Item
  | [] => []
  | s :: rest => (a.item? s).toList ++ (a.next s).items rest

@[simp] theorem items_nil (a : Arbiter) : a.items [] = [] := rfl

theorem items_cons (a : Arbiter) (s : Step) (rest : List Step) :
    a.items (s :: rest) = (a.item? s).toList ++ (a.next s).items rest := rfl

theorem items_append (a : Arbiter) (xs ys : List Step) :
    a.items (xs ++ ys) = a.items xs ++ (a.after xs).items ys := by
  induction xs generalizing a with
  | nil => rfl
  | cons s rest ih => rw [List.cons_append, items_cons, items_cons, ih, List.append_assoc, after_cons]

/-- A packet goes out exactly for a packet that changes the data. -/
theorem packets_item? (a : Arbiter) (s : Step) :
    (a.item? s).toList.filterMap Item.packet? =
      (if a.verdict s = .emitted then s.packet else none).toList := by
  rw [item?]
  cases hv : a.verdict s with
  | emitted => cases hp : s.packet <;> simp [Item.ofVerdict?, hp, Item.packet?]
  | unchanged => rfl
  | conflict => rfl
  | dropped => rfl
  | stale => rfl
  | timedOut => rfl
  | idle => rfl

/-- An arbiter puts out items of its own universe only. -/
theorem universeId_of_item? {a : Arbiter} {s : Step} {i : Item} (h : a.item? s = some i) :
    i.universeId = a.universeId := by
  rw [item?] at h
  cases hv : a.verdict s <;> rw [hv] at h <;> simp only [Item.ofVerdict?, reduceCtorEq] at h
  · obtain ⟨p, hp, rfl⟩ := Option.map_eq_some_iff.1 h
    cases hs : s.heardOn a.universeId with
    | none =>
      rw [verdict_of_silent hs] at hv
      rcases a.silence_cases s.time with h' | h' <;> rw [h'] at hv <;> cases hv
    | some q =>
      obtain ⟨hq, hu, -⟩ := packet_of_heardOn hs
      rw [hp] at hq
      rw [← hu, ← Option.some.inj hq]
      rfl
  · rw [← Option.some.inj h]
    rfl
  · rw [← Option.some.inj h]
    rfl

end Arbitration.Arbiter

namespace Delivery

open Arbitration (Arbiter)

/-! ## Sinks -/

namespace Sink

variable {α : Type} {s t : Sink α} {a : α}

/-- Whether a sink holds no more than it can. -/
def Fits (s : Sink α) : Prop := s.held.length ≤ s.capacity

theorem fits_put? (h : s.put? a = some t) : t.Fits := by
  unfold put? at h
  split at h
  · next hlt =>
    rw [← Option.some.inj h, Fits, List.length_append]
    exact hlt
  · cases h

theorem handOver?_eq (h : s.handOver? a = some t) :
    s.capacity = 0 ∧ t = { s with received := s.received ++ [a] } := by
  unfold handOver? at h
  split at h
  · next h0 => exact ⟨h0, (Option.some.inj h).symm⟩
  · cases h

theorem fits_handOver? (hs : s.Fits) (h : s.handOver? a = some t) : t.Fits := by
  obtain ⟨-, rfl⟩ := handOver?_eq h
  exact hs

/-- A sink that can hold nothing is handed over to in the order of the flow. -/
theorem flow_handOver? (hs : s.Fits) (h : s.handOver? a = some t) : t.flow = s.flow ++ [a] := by
  obtain ⟨h0, rfl⟩ := handOver?_eq h
  rw [Fits, h0, Nat.le_zero, List.length_eq_zero_iff] at hs
  rw [flow, flow, hs, List.append_nil, List.append_nil]

theorem fits_receive? (hs : s.Fits) (h : s.receive? = some t) : t.Fits := by
  unfold receive? at h
  split at h
  · cases h
  · next b rest hh =>
    rw [Fits, hh, List.length_cons] at hs
    rw [← Option.some.inj h]
    exact Nat.le_of_succ_le hs

theorem held_of_receive?_none (h : s.receive? = none) : s.held = [] := by
  unfold receive? at h
  split at h
  · next hh => exact hh
  · cases h

end Sink

/-! ## Outlets -/

namespace Outlet

variable {o o' : Outlet} {i : Item}

/-- Whether both sinks hold no more than they can. -/
def Fits (o : Outlet) : Prop := o.packets.Fits ∧ o.reports.Fits

theorem Fits.of_sinks (hf : o.Fits) (hp : o'.packets = o.packets) (hr : o'.reports = o.reports) :
    o'.Fits := by
  rw [Fits, hp, hr]
  exact hf

/-- Some items have gone through an outlet, each into its sink. -/
structure Passed (o o' : Outlet) (items : List Item) : Prop where
  packets : o'.packets.flow = o.packets.flow ++ items.filterMap Item.packet?
  reports : o'.reports.flow = o.reports.flow ++ items.filterMap Item.report?

theorem Passed.nil (hp : o'.packets = o.packets) (hr : o'.reports = o.reports) :
    Passed o o' [] := by
  constructor
  · rw [hp, List.filterMap_nil, List.append_nil]
  · rw [hr, List.filterMap_nil, List.append_nil]

theorem passed_put? (h : o.put? i = some o') : Passed o o' [i] := by
  cases i with
  | packet p =>
    obtain ⟨t, ht, rfl⟩ := Option.map_eq_some_iff.1 h
    exact ⟨Sink.flow_put? ht, (List.append_nil _).symm⟩
  | report r =>
    obtain ⟨t, ht, rfl⟩ := Option.map_eq_some_iff.1 h
    exact ⟨(List.append_nil _).symm, Sink.flow_put? ht⟩

theorem passed_handOver? (hf : o.Fits) (h : o.handOver? i = some o') : Passed o o' [i] := by
  cases i with
  | packet p =>
    obtain ⟨t, ht, rfl⟩ := Option.map_eq_some_iff.1 h
    exact ⟨Sink.flow_handOver? hf.1 ht, (List.append_nil _).symm⟩
  | report r =>
    obtain ⟨t, ht, rfl⟩ := Option.map_eq_some_iff.1 h
    exact ⟨(List.append_nil _).symm, Sink.flow_handOver? hf.2 ht⟩

theorem fits_put? (hf : o.Fits) (h : o.put? i = some o') : o'.Fits := by
  cases i with
  | packet p =>
    obtain ⟨t, ht, rfl⟩ := Option.map_eq_some_iff.1 h
    exact ⟨Sink.fits_put? ht, hf.2⟩
  | report r =>
    obtain ⟨t, ht, rfl⟩ := Option.map_eq_some_iff.1 h
    exact ⟨hf.1, Sink.fits_put? ht⟩

theorem fits_handOver? (hf : o.Fits) (h : o.handOver? i = some o') : o'.Fits := by
  cases i with
  | packet p =>
    obtain ⟨t, ht, rfl⟩ := Option.map_eq_some_iff.1 h
    exact ⟨Sink.fits_handOver? hf.1 ht, hf.2⟩
  | report r =>
    obtain ⟨t, ht, rfl⟩ := Option.map_eq_some_iff.1 h
    exact ⟨hf.1, Sink.fits_handOver? hf.2 ht⟩

theorem sinks_offered (o : Outlet) (w : Worker) (s : Step) :
    (o.offered w s).packets = o.packets ∧ (o.offered w s).reports = o.reports := by
  unfold offered
  split <;> exact ⟨rfl, rfl⟩

/-- Whether nothing is left in the sinks. -/
def Drained (o : Outlet) : Prop := o.packets.held = [] ∧ o.reports.held = []

/-- With nothing left in the sinks an item can go out, into a sink or straight to the consumer. -/
theorem passable_of_drained (h : o.Drained) (i : Item) :
    (o.put? i).isSome = true ∨ (o.handOver? i).isSome = true := by
  cases i with
  | packet p =>
    by_cases hc : o.packets.capacity = 0
    · exact .inr (by simp [handOver?, Sink.handOver?, hc])
    · exact .inl (by simp [put?, Sink.put?, h.1, Nat.pos_of_ne_zero hc])
  | report r =>
    by_cases hc : o.reports.capacity = 0
    · exact .inr (by simp [handOver?, Sink.handOver?, hc])
    · exact .inl (by simp [put?, Sink.put?, h.2, Nat.pos_of_ne_zero hc])

end Outlet

/-! ## Workers -/

namespace Worker

/-- The steps that a worker has taken on and not handled yet, oldest first. -/
def pending (w : Worker) : List Step :=
  match w.phase with
  | .taken s | .cleared s => s :: w.queue
  | .waiting | .sending _ | .finished => w.queue

/-- The items that a worker is going to put out, oldest first. -/
def due (w : Worker) : List Item := w.item?.toList ++ w.arbiter.items w.pending

/-- The arbiter of a worker once every step that it has taken on is handled. -/
def eventual (w : Worker) : Arbiter := w.arbiter.after w.pending

/-- A worker of an active universe: it is not told to stop, and somebody offers it steps. -/
structure Serving (w : Worker) : Prop where
  active : w.isActive = true
  held : w.isHeld = true
  going : w.isFinished = false

variable {w v : Worker} {verdict : Option Arbitration.Verdict}

/-- A step that is put into the queue is pending last. -/
theorem pending_queued (w : Worker) (s : Step) :
    pending { w with queue := w.queue ++ [s] } = w.pending ++ [s] := by
  cases hp : w.phase <;> simp [pending, hp]

theorem serving_offer (h : w.Serving) (s : Step) : (w.offer s).Serving := by
  unfold offer
  split
  · exact ⟨h.active, h.held, h.going⟩
  · exact h

/-- Everything that the next move of a worker can be. -/
theorem move?_cases (h : w.move? = some (v, verdict)) :
    (∃ s rest, w.phase = .waiting ∧ w.queue = s :: rest ∧
      v = { w with queue := rest, phase := .taken s } ∧ verdict = none) ∨
    (w.phase = .waiting ∧ w.queue = [] ∧ w.isHeld = false ∧
      v = { w with phase := .finished } ∧ verdict = none) ∨
    (∃ s, w.phase = .taken s ∧ w.isActive = true ∧
      v = { w with phase := .cleared s } ∧ verdict = none) ∨
    (∃ s, w.phase = .taken s ∧ w.isActive = false ∧
      v = { w with queue := [], phase := .finished } ∧ verdict = none) ∨
    (∃ s, w.phase = .cleared s ∧ v = (w.handle s).1 ∧ verdict = some (w.handle s).2) := by
  unfold move? at h
  split at h
  · next hp =>
    split at h
    · next s rest hq =>
      obtain ⟨rfl, rfl⟩ := Prod.mk.inj (Option.some.inj h)
      exact .inl ⟨s, rest, hp, hq, rfl, rfl⟩
    · next hq =>
      split at h
      · cases h
      · next hheld =>
        obtain ⟨rfl, rfl⟩ := Prod.mk.inj (Option.some.inj h)
        exact .inr (.inl ⟨hp, hq, by simpa using hheld, rfl, rfl⟩)
  · next s hp =>
    split at h
    · next hactive =>
      obtain ⟨rfl, rfl⟩ := Prod.mk.inj (Option.some.inj h)
      exact .inr (.inr (.inl ⟨s, hp, hactive, rfl, rfl⟩))
    · next hactive =>
      obtain ⟨rfl, rfl⟩ := Prod.mk.inj (Option.some.inj h)
      exact .inr (.inr (.inr (.inl ⟨s, hp, by simpa using hactive, rfl, rfl⟩)))
  · next s hp =>
    obtain ⟨rfl, rfl⟩ := Prod.mk.inj (Option.some.inj h)
    exact .inr (.inr (.inr (.inr ⟨s, hp, rfl, rfl⟩)))
  · cases h
  · cases h

/-- After a step is handled the worker holds the item of that step, if it has one. -/
theorem handle_spec (w : Worker) (s : Step) :
    (w.handle s).1.pending = w.queue ∧ (w.handle s).1.item? = w.arbiter.item? s ∧
      (w.handle s).1.arbiter = w.arbiter.next s ∧ (w.handle s).2 = w.arbiter.verdict s := by
  have hitem : w.arbiter.item? s =
      Item.ofVerdict? w.universeId s (w.arbiter.handle s.packet s.time).1 := rfl
  rw [hitem]
  cases hi : Item.ofVerdict? w.universeId s (w.arbiter.handle s.packet s.time).1 with
  | none => simp [handle, pending, item?, hi, Arbiter.next, Arbiter.verdict]
  | some i => simp [handle, pending, item?, hi, Arbiter.next, Arbiter.verdict]

/-- A worker that has handled a step is not done. -/
theorem going_handle (w : Worker) (s : Step) : (w.handle s).1.isFinished = false := by
  refine decide_eq_false ?_
  simp only [handle]
  split <;> simp

/-- A worker that handles a step owes the item of that step first. -/
theorem due_handle (s : Step) :
    (w.handle s).1.due = (w.arbiter.item? s).toList ++ (w.arbiter.next s).items w.queue ∧
      (w.handle s).1.eventual = (w.arbiter.next s).after w.queue := by
  obtain ⟨hpending, hitem, harbiter, -⟩ := w.handle_spec s
  rw [due, eventual, hpending, hitem, harbiter]
  exact ⟨rfl, rfl⟩

/-- The moves of a serving worker change nothing of what it owes. -/
theorem due_move? (hs : w.Serving) (h : w.move? = some (v, verdict)) :
    v.Serving ∧ v.due = w.due ∧ v.eventual = w.eventual := by
  obtain ⟨hactive, hheld, hgoing⟩ := hs
  rcases move?_cases h with ⟨s, rest, hp, hq, rfl, -⟩ | ⟨-, -, hreleased, -, -⟩ |
    ⟨s, hp, -, rfl, -⟩ | ⟨s, -, hinactive, -, -⟩ | ⟨s, hp, rfl, -⟩
  · refine ⟨⟨hactive, hheld, rfl⟩, ?_, ?_⟩
    · simp [due, pending, item?, hp, hq]
    · simp [eventual, pending, hp, hq]
  · rw [hheld] at hreleased
    cases hreleased
  · refine ⟨⟨hactive, hheld, rfl⟩, ?_, ?_⟩
    · simp [due, pending, item?, hp]
    · simp [eventual, pending, hp]
  · rw [hactive] at hinactive
    cases hinactive
  · obtain ⟨hdue, heventual⟩ := due_handle (w := w) s
    refine ⟨⟨hactive, hheld, w.going_handle s⟩, ?_, ?_⟩
    · rw [hdue, due, pending, item?, hp]
      rfl
    · rw [heventual, eventual, pending, hp]
      rfl

/-- A worker that has got rid of its item owes one item less. -/
theorem due_sent {i : Item} (hs : w.Serving) (hi : w.item? = some i) :
    w.sent.Serving ∧ w.due = i :: w.sent.due ∧ w.sent.eventual = w.eventual := by
  unfold item? at hi
  split at hi
  · next j hp =>
    obtain rfl := Option.some.inj hi
    refine ⟨⟨hs.active, hs.held, rfl⟩, ?_, ?_⟩
    · simp [due, pending, item?, sent, hp]
    · simp [eventual, pending, sent, hp]
  · cases hi

/-- A worker without a next move and without an item waits for somebody to offer it a step, or is
done. -/
theorem still_cases (hm : w.move? = none) (hi : w.item? = none) :
    (w.phase = .waiting ∧ w.queue = [] ∧ w.isHeld = true) ∨ w.isFinished = true := by
  cases hp : w.phase with
  | waiting =>
    cases hq : w.queue with
    | nil => cases hh : w.isHeld <;> simp [move?, hp, hq, hh] at hm ⊢
    | cons s rest => simp [move?, hp, hq] at hm
  | taken s => cases ha : w.isActive <;> simp [move?, hp, ha] at hm
  | cleared s => simp [move?, hp] at hm
  | sending i => simp [item?, hp] at hi
  | finished => exact .inr (by simp [isFinished, hp])

/-- A serving worker without a next move and without an item has handled every step. -/
theorem rested (hs : w.Serving) (hm : w.move? = none) (hi : w.item? = none) :
    w.phase = .waiting ∧ w.queue = [] := by
  rcases still_cases hm hi with ⟨hp, hq, -⟩ | hf
  · exact ⟨hp, hq⟩
  · rw [hs.going] at hf
    cases hf

/-- A worker that rests owes nothing, and knows everything that it is going to know. -/
theorem due_of_rested (hp : w.phase = .waiting) (hq : w.queue = []) :
    w.due = [] ∧ w.eventual = w.arbiter := by
  simp [due, eventual, pending, item?, hp, hq]

/-- A rested worker has room for a step, and then owes the item of that step. -/
theorem due_offer_of_rested (hp : w.phase = .waiting) (hq : w.queue = []) (s : Step) :
    w.admission = .queued ∧ (w.offer s).due = (w.arbiter.item? s).toList ∧
      (w.offer s).eventual = w.arbiter.next s := by
  have hadm : w.admission = .queued := by
    simp [admission, isFinished, hp, hq, queueCapacity]
  refine ⟨hadm, ?_, ?_⟩
  · simp [offer, hadm, due, pending, item?, hp, hq, Arbiter.items_cons]
  · simp [offer, hadm, eventual, pending, hp, hq]

end Worker

/-! ## Pipelines -/

namespace Pipeline

open Outlet (Passed)

/-- What a worker does itself. -/
def own : List Action := [.move, .put, .handOver]

variable {p q : Pipeline} {a : Action}

theorem sends_of_act?_eq {next : Outlet → Item → Option Outlet}
    (h : (do
      let outlet ← next p.outlet (← p.worker.item?)
      return (⟨p.worker.sent, outlet⟩ : Pipeline)) = some q) :
    ∃ i o, p.worker.item? = some i ∧ next p.outlet i = some o ∧ q = ⟨p.worker.sent, o⟩ := by
  cases hi : p.worker.item? with
  | none => rw [hi] at h; cases h
  | some i =>
    rw [hi] at h
    cases ho : next p.outlet i with
    | none => simp [ho] at h
    | some o =>
      simp only [Option.pure_def, Option.bind_eq_bind, Option.bind_some, ho, Option.some.injEq] at h
      exact ⟨i, o, rfl, ho, h.symm⟩

/-- The outlet once a move was made, and its verdict counted if it has one. -/
def counted (o : Outlet) : Option Arbitration.Verdict → Outlet
  | none => o
  | some v => { o with counters := o.counters.tally v }

/-- What an action of a worker does to its outlet. -/
theorem outlet_act? (ha : a ∈ own) (h : p.act? a = some q) :
    (∃ verdict, p.worker.move? = some (q.worker, verdict) ∧
      q.outlet = counted p.outlet verdict) ∨
    (∃ i, p.worker.item? = some i ∧ q.worker = p.worker.sent ∧
      (p.outlet.put? i = some q.outlet ∨ p.outlet.handOver? i = some q.outlet)) := by
  simp only [own, List.mem_cons, List.not_mem_nil, or_false] at ha
  rcases ha with rfl | rfl | rfl
  · obtain ⟨⟨v, verdict⟩, hm, rfl⟩ := Option.map_eq_some_iff.1 h
    refine .inl ⟨verdict, ?_⟩
    cases verdict <;> exact ⟨hm, rfl⟩
  · obtain ⟨i, o, hi, ho, rfl⟩ := sends_of_act?_eq h
    exact .inr ⟨i, hi, rfl, .inl ho⟩
  · obtain ⟨i, o, hi, ho, rfl⟩ := sends_of_act?_eq h
    exact .inr ⟨i, hi, rfl, .inr ho⟩

/-- Everything that a worker can do itself: move, or get rid of its item. -/
theorem act?_own_cases (ha : a ∈ own) (h : p.act? a = some q) :
    (∃ verdict, p.worker.move? = some (q.worker, verdict) ∧
      q.outlet.packets = p.outlet.packets ∧ q.outlet.reports = p.outlet.reports) ∨
    (∃ i, p.worker.item? = some i ∧ q.worker = p.worker.sent ∧
      (p.outlet.put? i = some q.outlet ∨ p.outlet.handOver? i = some q.outlet)) := by
  rcases outlet_act? ha h with ⟨verdict, hm, ho⟩ | hsend
  · refine .inl ⟨verdict, hm, ?_⟩
    rw [ho]
    cases verdict <;> exact ⟨rfl, rfl⟩
  · exact .inr hsend

/-- What a serving worker puts out is what it owed first. -/
theorem act?_due (hs : p.worker.Serving) (hf : p.outlet.Fits) (ha : a ∈ own)
    (h : p.act? a = some q) :
    q.worker.Serving ∧ q.outlet.Fits ∧ q.worker.eventual = p.worker.eventual ∧
      ∃ items, p.worker.due = items ++ q.worker.due ∧ Passed p.outlet q.outlet items := by
  rcases act?_own_cases ha h with ⟨verdict, hm, hpackets, hreports⟩ | ⟨i, hi, hw, ho⟩
  · obtain ⟨hs', hdue, heventual⟩ := Worker.due_move? hs hm
    exact ⟨hs', hf.of_sinks hpackets hreports, heventual, [], hdue.symm, .nil hpackets hreports⟩
  · obtain ⟨hs', hdue, heventual⟩ := Worker.due_sent hs hi
    rw [hw]
    rcases ho with ho | ho
    · exact ⟨hs', Outlet.fits_put? hf ho, heventual, [i], hdue, Outlet.passed_put? ho⟩
    · exact ⟨hs', Outlet.fits_handOver? hf ho, heventual, [i], hdue, Outlet.passed_handOver? hf ho⟩

/-- Where nothing is left in the sinks, a worker that can do nothing has no move and no item. -/
theorem stuck_of_drained (hd : p.outlet.Drained) (h : ∀ a ∈ own, p.act? a = none) :
    p.worker.move? = none ∧ p.worker.item? = none := by
  constructor
  · exact Option.map_eq_none_iff.1 (h .move (by decide))
  · cases hi : p.worker.item? with
    | none => rfl
    | some i =>
      have hput := h .put (by decide)
      have hhand := h .handOver (by decide)
      simp only [act?, hi, Option.bind_eq_bind, Option.bind_some] at hput hhand
      rcases Outlet.passable_of_drained hd i with ho | ho
      · obtain ⟨o, ho⟩ := Option.isSome_iff_exists.1 ho
        simp [ho] at hput
      · obtain ⟨o, ho⟩ := Option.isSome_iff_exists.1 ho
        simp [ho] at hhand

end Pipeline

end Delivery

end StreamingAcn
