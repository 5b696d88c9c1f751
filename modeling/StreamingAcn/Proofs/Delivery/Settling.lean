/-
StreamingAcn.Proofs.Delivery.Settling — a pipeline comes to rest.

Every action of a worker or its consumer takes some of the effort that is left, so a pipeline that
repeats what it can do stops for the reason that nothing can be done any more, and not because its
count of repetitions is used up.
-/
import StreamingAcn.Proofs.Delivery.Flow
import Mathlib.Logic.Relation

namespace StreamingAcn.Delivery

open Relation (ReflTransGen)

theorem Sink.held_receive? {α : Type} {s t : Sink α} (h : s.receive? = some t) :
    s.held.length = t.held.length + 1 := by
  unfold receive? at h
  split at h
  · cases h
  · next b rest hh => rw [← Option.some.inj h, hh, List.length_cons]

theorem Sink.held_put? {α : Type} {s t : Sink α} {a : α} (h : s.put? a = some t) :
    t.held.length = s.held.length + 1 := by
  unfold put? at h
  split at h
  · rw [← Option.some.inj h, List.length_append, List.length_singleton]
  · cases h

theorem Outlet.load_put? {o o' : Outlet} {i : Item} (h : o.put? i = some o') :
    o'.load = o.load + 1 := by
  cases i with
  | packet p =>
    obtain ⟨t, ht, rfl⟩ := Option.map_eq_some_iff.1 h
    have := Sink.held_put? ht
    simp only [load]
    omega
  | report r =>
    obtain ⟨t, ht, rfl⟩ := Option.map_eq_some_iff.1 h
    have := Sink.held_put? ht
    simp only [load]
    omega

theorem Outlet.load_handOver? {o o' : Outlet} {i : Item} (h : o.handOver? i = some o') :
    o'.load = o.load := by
  cases i with
  | packet p =>
    obtain ⟨t, ht, rfl⟩ := Option.map_eq_some_iff.1 h
    obtain ⟨-, rfl⟩ := Sink.handOver?_eq ht
    rfl
  | report r =>
    obtain ⟨t, ht, rfl⟩ := Option.map_eq_some_iff.1 h
    obtain ⟨-, rfl⟩ := Sink.handOver?_eq ht
    rfl

/-- The consumer receives something: nothing else changes than where it is. -/
structure Outlet.Received (o o' : Outlet) : Prop where
  packets : o'.packets.flow = o.packets.flow
  reports : o'.reports.flow = o.reports.flow
  counters : o'.counters = o.counters
  load : o'.load < o.load
  fits : o.Fits → o'.Fits

namespace Outlet

variable {o : Outlet}

theorem received_packet {s : Sink Packet} (h : o.packets.receive? = some s) :
    Received o { o with packets := s } where
  packets := Sink.flow_receive? h
  reports := rfl
  counters := rfl
  load := by
    have := Sink.held_receive? h
    simp only [load]
    omega
  fits hf := ⟨Sink.fits_receive? hf.1 h, hf.2⟩

theorem received_report {s : Sink Report} (h : o.reports.receive? = some s) :
    Received o { o with reports := s } where
  packets := rfl
  reports := Sink.flow_receive? h
  counters := rfl
  load := by
    have := Sink.held_receive? h
    simp only [load]
    omega
  fits hf := ⟨hf.1, Sink.fits_receive? hf.2 h⟩

end Outlet

theorem Worker.effort_sent {w : Worker} {i : Item} (h : w.item? = some i) :
    w.effort = w.sent.effort + 2 := by
  unfold item? at h
  split at h
  · next j hp => simp only [effort, sent, hp]
  · cases h

namespace Pipeline

variable {p q : Pipeline} {a : Action} {actions : List Action}

/-- What a worker does itself takes effort. -/
theorem effort_own (ha : a ∈ own) (h : p.act? a = some q) : q.effort < p.effort := by
  rcases act?_own_cases ha h with ⟨verdict, hm, hpackets, hreports⟩ | ⟨i, hi, hw, ho⟩
  · have := Worker.effort_move? hm
    rw [effort, effort, Outlet.load, Outlet.load, hpackets, hreports]
    omega
  · have hsent := Worker.effort_sent hi
    rw [effort, effort, hw]
    rcases ho with ho | ho
    · have := Outlet.load_put? ho
      omega
    · have := Outlet.load_handOver? ho
      omega

theorem attended_cases (ha : a ∈ attended) :
    a = .receivePacket ∨ a = .receiveReport ∨ a ∈ own := by
  simpa [attended, own] using ha

/-- What is not done by the worker itself is that the consumer receives something. -/
theorem act?_attended_cases (ha : a ∈ attended) (h : p.act? a = some q) :
    a ∈ own ∨ q.worker = p.worker ∧ Outlet.Received p.outlet q.outlet := by
  rcases attended_cases ha with rfl | rfl | ha
  · obtain ⟨t, ht, rfl⟩ := Option.map_eq_some_iff.1 h
    exact .inr ⟨rfl, Outlet.received_packet ht⟩
  · obtain ⟨t, ht, rfl⟩ := Option.map_eq_some_iff.1 h
    exact .inr ⟨rfl, Outlet.received_report ht⟩
  · exact .inl ha

/-- Everything that a worker and its consumer can do takes effort. -/
theorem effort_attended (ha : a ∈ attended) (h : p.act? a = some q) : q.effort < p.effort := by
  rcases act?_attended_cases ha h with hown | ⟨hw, hreceived⟩
  · exact effort_own hown h
  · have := hreceived.load
    rw [effort, effort, hw]
    omega

theorem act?_of_first?_some (h : p.first? actions = some q) : ∃ a ∈ actions, p.act? a = some q := by
  induction actions with
  | nil => cases h
  | cons b rest ih =>
    rw [first?] at h
    split at h
    · next r hb => exact ⟨b, List.mem_cons_self, hb.trans h⟩
    · obtain ⟨a, ha, hq⟩ := ih h
      exact ⟨a, List.mem_cons_of_mem _ ha, hq⟩

theorem act?_of_first?_none (h : p.first? actions = none) : ∀ a ∈ actions, p.act? a = none := by
  induction actions with
  | nil => intro a ha; cases ha
  | cons b rest ih =>
    rw [first?] at h
    split at h
    · cases h
    · next hb =>
      intro a ha
      rcases List.mem_cons.1 ha with rfl | ha
      · exact hb
      · exact ih h a ha

/-- A pipeline goes to another one by one of some actions. -/
def Goes (actions : List Action) (p q : Pipeline) : Prop := ∃ a ∈ actions, p.act? a = some q

/-- Repetition goes on until nothing is possible, if it may go on for as long as there is effort. -/
theorem repeatFirst_spec (hsub : ∀ a ∈ actions, a ∈ attended) (n : Nat) (hn : p.effort ≤ n) :
    ReflTransGen (Goes actions) p (repeatFirst actions n p) ∧
      ∀ a ∈ actions, (repeatFirst actions n p).act? a = none := by
  induction n generalizing p with
  | zero =>
    refine ⟨.refl, ?_⟩
    intro a ha
    cases hq : p.act? a with
    | none => exact hq
    | some q =>
      have := effort_attended (hsub a ha) hq
      omega
  | succ n ih =>
    rw [repeatFirst]
    cases hf : p.first? actions with
    | none => exact ⟨.refl, act?_of_first?_none hf⟩
    | some q =>
      obtain ⟨a, ha, hq⟩ := act?_of_first?_some hf
      have hlt := effort_attended (hsub a ha) hq
      obtain ⟨hreach, hstuck⟩ := ih (p := q) (by omega)
      exact ⟨.head ⟨a, ha, hq⟩ hreach, hstuck⟩

/-- A pipeline settles by actions that are possible, and then has nothing left to do. -/
theorem settle_spec (p : Pipeline) :
    ReflTransGen (Goes attended) p p.settle ∧ p.settle.outlet.Drained ∧
      p.settle.worker.move? = none ∧ p.settle.worker.item? = none := by
  obtain ⟨hreach, hstuck⟩ := repeatFirst_spec (fun _ h => h) p.effort (Nat.le_refl _)
  have hdrained : p.settle.outlet.Drained :=
    ⟨Sink.held_of_receive?_none (Option.map_eq_none_iff.1 (hstuck .receivePacket (by decide))),
      Sink.held_of_receive?_none (Option.map_eq_none_iff.1 (hstuck .receiveReport (by decide)))⟩
  have hown : ∀ a ∈ own, p.settle.act? a = none := by
    intro a ha
    exact hstuck a (by simp [own] at ha; rcases ha with rfl | rfl | rfl <;> decide)
  exact ⟨hreach, hdrained, stuck_of_drained hdrained hown⟩

end Pipeline

end StreamingAcn.Delivery
