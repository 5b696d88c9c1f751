/-
StreamingAcn.Proofs.Arbitration.Run — an arbiter over a run of steps.

An arbiter that takes one step after another gives a verdict on each of them. What it knows after
the run is of two kinds, and each depends on one part of the trace only: the table of sources on
the packets that the universe merges, the last number, slots and time on the packets that were
accepted.

Definitions:

* `Arbiter.verdict`, `Arbiter.next`, `Arbiter.after`: one step, and a run of them;
* `Arbiter.accepted`: the packets that a run accepts;
* `Step.heardOn`: the packet of a step that a universe merges.

Main statements:

* `judge_cases`: the four things that can come of a packet, each with its condition;
* `after_last`: the last number, slots and time are those of the last accepted packet.
-/
import StreamingAcn.Delivery.Item
import Mathlib.Data.List.Induction

namespace StreamingAcn

/-- The packet of a step that a universe merges: one addressed to it that carries dimmer levels. -/
def Delivery.Step.heardOn (s : Delivery.Step) (u : UniverseId) : Option Packet :=
  s.packet.filter fun p => p.universeId = u && p.startCode = 0

/-- Whether a verdict accepts the packet of its step. -/
def Arbitration.Verdict.accepts : Arbitration.Verdict → Bool
  | .emitted | .unchanged => true
  | .conflict | .dropped | .stale | .timedOut | .idle => false

/-- Whether the times of some steps never go back. -/
def Arbitration.InOrder (steps : List Delivery.Step) : Prop :=
  steps.Pairwise fun a b => a.time ≤ b.time

instance (steps : List Delivery.Step) : Decidable (Arbitration.InOrder steps) :=
  inferInstanceAs (Decidable (steps.Pairwise fun a b => a.time ≤ b.time))

namespace Arbitration.Arbiter

open Delivery (Step)

/-! ## One step -/

/-- The verdict on a step. -/
def verdict (a : Arbiter) (s : Step) : Verdict := (a.handle s.packet s.time).1

/-- The arbiter after a step. -/
def next (a : Arbiter) (s : Step) : Arbiter := (a.handle s.packet s.time).2

/-- A step is judged by the packet that the universe merges, and is silence without one. -/
theorem handle_eq (a : Arbiter) (s : Step) :
    a.handle s.packet s.time =
      match s.heardOn a.universeId with
      | some p => a.judge p s.time
      | none => (a.silence s.time, a) := by
  obtain ⟨packet, now⟩ := s
  cases packet with
  | none => rfl
  | some p =>
    by_cases hp : a.concerns p
    · have hf : (⟨some p, now⟩ : Step).heardOn a.universeId = some p := by
        simpa [Step.heardOn, concerns] using hp
      rw [hf]
      simp only [handle, hp, if_true]
    · have hf : (⟨some p, now⟩ : Step).heardOn a.universeId = none := by
        simpa [Step.heardOn, concerns] using hp
      rw [hf]
      simp only [handle, if_neg hp]

theorem verdict_of_heard {a : Arbiter} {s : Step} {p : Packet}
    (h : s.heardOn a.universeId = some p) : a.verdict s = (a.judge p s.time).1 := by
  rw [verdict, handle_eq, h]

theorem next_of_heard {a : Arbiter} {s : Step} {p : Packet}
    (h : s.heardOn a.universeId = some p) : a.next s = (a.judge p s.time).2 := by
  rw [next, handle_eq, h]

theorem verdict_of_silent {a : Arbiter} {s : Step} (h : s.heardOn a.universeId = none) :
    a.verdict s = a.silence s.time := by
  rw [verdict, handle_eq, h]

theorem next_of_silent {a : Arbiter} {s : Step} (h : s.heardOn a.universeId = none) :
    a.next s = a := by
  rw [next, handle_eq, h]

/-- A merged packet is the packet of its step. -/
theorem packet_of_heardOn {s : Step} {u : UniverseId} {p : Packet} (h : s.heardOn u = some p) :
    s.packet = some p ∧ p.universeId = u ∧ p.startCode = 0 := by
  simp only [Step.heardOn, Option.filter_eq_some_iff, Bool.and_eq_true, decide_eq_true_eq] at h
  exact ⟨h.1, h.2.1, h.2.2⟩

/-- A silent step is answered with a timeout or with nothing. -/
theorem silence_cases (a : Arbiter) (now : Nat) : a.silence now = .timedOut ∨ a.silence now = .idle := by
  unfold silence
  split
  · exact .inl rfl
  · exact .inr rfl

/-! ## What can come of a packet -/

/-- The sources of highest credit once a packet is heard. -/
abbrev winnersOn (a : Arbiter) (p : Packet) (now : Nat) : List Cid :=
  SourceTable.winners (a.hear p now).sources

/-- Everything that can come of a packet: each verdict with its condition and the arbiter after it. -/
theorem judge_cases (a : Arbiter) (p : Packet) (now : Nat) :
    (1 < (a.winnersOn p now).length ∧ a.judge p now = (.conflict, a.hear p now)) ∨
    ((a.winnersOn p now).length ≤ 1 ∧ p.cid ∉ a.winnersOn p now ∧
      a.judge p now = (.dropped, a.hear p now)) ∨
    (a.winnersOn p now = [p.cid] ∧ a.isStale p = true ∧ a.judge p now = (.stale, a.hear p now)) ∨
    (a.winnersOn p now = [p.cid] ∧ a.isStale p = false ∧
      a.judge p now =
        (if a.lastSlots = p.slots then .unchanged else .emitted, (a.hear p now).accept p now)) := by
  by_cases hlen : 1 < (a.winnersOn p now).length
  · exact .inl ⟨hlen, by simp only [judge, if_pos hlen]⟩
  · by_cases hmem : p.cid ∈ a.winnersOn p now
    · have hone : a.winnersOn p now = [p.cid] := by
        obtain ⟨c, hc⟩ := List.length_eq_one_iff.1
          (Nat.le_antisymm (Nat.le_of_not_lt hlen) (List.length_pos_of_mem hmem))
        rw [hc] at hmem ⊢
        rw [List.mem_singleton.1 hmem]
      by_cases hs : a.isStale p = true
      · refine .inr (.inr (.inl ⟨hone, hs, ?_⟩))
        have hs' : (a.hear p now).isStale p = true := hs
        simp only [judge, if_neg hlen, hmem, not_true, if_false, hs', if_true]
      · refine .inr (.inr (.inr ⟨hone, by simpa using hs, ?_⟩))
        have hs' : ¬ (a.hear p now).isStale p = true := hs
        simp only [judge, if_neg hlen, hmem, not_true, if_false, if_neg hs']
        rfl
    · exact .inr (.inl ⟨Nat.le_of_not_lt hlen, hmem, by
        simp only [judge, if_neg hlen, if_pos hmem]⟩)

/-- The four verdicts on a packet, told by the winners and the number alone. -/
theorem judge_verdict_iff (a : Arbiter) (p : Packet) (now : Nat) :
    ((a.judge p now).1 = .conflict ↔ 1 < (a.winnersOn p now).length) ∧
    ((a.judge p now).1 = .dropped ↔
      (a.winnersOn p now).length ≤ 1 ∧ p.cid ∉ a.winnersOn p now) ∧
    ((a.judge p now).1 = .stale ↔ a.winnersOn p now = [p.cid] ∧ a.isStale p = true) ∧
    ((a.judge p now).1.accepts = true ↔
      a.winnersOn p now = [p.cid] ∧ a.isStale p = false) := by
  rcases a.judge_cases p now with ⟨hl, hj⟩ | ⟨hl, hm, hj⟩ | ⟨hw, hs, hj⟩ | ⟨hw, hs, hj⟩
  · have hne : a.winnersOn p now ≠ [p.cid] := fun h => by simp [h] at hl
    have hnot : ¬ (a.winnersOn p now).length ≤ 1 := Nat.not_le_of_lt hl
    simp [hj, Verdict.accepts, hl, hnot, hne]
  · have hne : a.winnersOn p now ≠ [p.cid] := fun h => by simp [h] at hm
    simp [hj, Verdict.accepts, hl, hm, hne]
  · simp [hj, Verdict.accepts, hw, hs]
  · rw [hj]
    by_cases hd : a.lastSlots = p.slots <;> simp [hd, Verdict.accepts, hw, hs]

/-- Everything that comes of a packet that is accepted. -/
theorem judge_of_accepts {a : Arbiter} {p : Packet} {now : Nat}
    (h : (a.judge p now).1.accepts = true) :
    a.judge p now =
      (if a.lastSlots = p.slots then .unchanged else .emitted, (a.hear p now).accept p now) := by
  obtain ⟨hw, hs⟩ := (a.judge_verdict_iff p now).2.2.2.1 h
  rcases a.judge_cases p now with ⟨hl, -⟩ | ⟨-, hm, -⟩ | ⟨-, hs', -⟩ | ⟨-, -, hj⟩
  · simp [hw] at hl
  · simp [hw] at hm
  · rw [hs] at hs'
    cases hs'
  · exact hj

/-- Whatever comes of a packet, its source has been heard. -/
theorem judge_sources (a : Arbiter) (p : Packet) (now : Nat) :
    (a.judge p now).2.sources = (a.hear p now).sources := by
  rcases a.judge_cases p now with ⟨-, hj⟩ | ⟨-, -, hj⟩ | ⟨-, -, hj⟩ | ⟨-, -, hj⟩
  all_goals exact congrArg (·.2.sources) hj

/-! ## The universe and the timeout of an arbiter -/

theorem judge_settings (a : Arbiter) (p : Packet) (now : Nat) :
    (a.judge p now).2.universeId = a.universeId ∧ (a.judge p now).2.timeout = a.timeout := by
  rcases a.judge_cases p now with ⟨-, hj⟩ | ⟨-, -, hj⟩ | ⟨-, -, hj⟩ | ⟨-, -, hj⟩
  all_goals rw [hj]; exact ⟨rfl, rfl⟩

theorem next_settings (a : Arbiter) (s : Step) :
    (a.next s).universeId = a.universeId ∧ (a.next s).timeout = a.timeout := by
  cases h : s.heardOn a.universeId with
  | none => rw [next_of_silent h]; exact ⟨rfl, rfl⟩
  | some p => rw [next_of_heard h]; exact a.judge_settings p s.time

/-- A step never moves an arbiter to another universe. -/
@[simp] theorem next_universeId (a : Arbiter) (s : Step) : (a.next s).universeId = a.universeId :=
  (a.next_settings s).1

@[simp] theorem next_timeout (a : Arbiter) (s : Step) : (a.next s).timeout = a.timeout :=
  (a.next_settings s).2

/-! ## Runs -/

/-- The arbiter after some steps. -/
def after (a : Arbiter) (steps : List Step) : Arbiter := steps.foldl next a

@[simp] theorem after_nil (a : Arbiter) : a.after [] = a := rfl

@[simp] theorem after_cons (a : Arbiter) (s : Step) (rest : List Step) :
    a.after (s :: rest) = (a.next s).after rest := rfl

theorem after_append (a : Arbiter) (xs ys : List Step) :
    a.after (xs ++ ys) = (a.after xs).after ys := List.foldl_append

@[simp] theorem after_universeId (a : Arbiter) (steps : List Step) :
    (a.after steps).universeId = a.universeId := by
  induction steps generalizing a with
  | nil => rfl
  | cons s rest ih => rw [after_cons, ih, next_universeId]

@[simp] theorem after_timeout (a : Arbiter) (steps : List Step) :
    (a.after steps).timeout = a.timeout := by
  induction steps generalizing a with
  | nil => rfl
  | cons s rest ih => rw [after_cons, ih, next_timeout]

/-! ## The packets that a run accepts -/

/-- The packets that a run accepts with the times they came, oldest first. -/
def accepted (a : Arbiter) : List Step → List (Packet × Nat)
  | [] => []
  | s :: rest =>
    (if (a.verdict s).accepts then s.packet.map (·, s.time) else none).toList ++
      (a.next s).accepted rest

theorem accepted_append (a : Arbiter) (xs ys : List Step) :
    a.accepted (xs ++ ys) = a.accepted xs ++ (a.after xs).accepted ys := by
  induction xs generalizing a with
  | nil => rfl
  | cons s rest ih => rw [List.cons_append, accepted, accepted, ih, List.append_assoc, after_cons]

/-- A step that accepts nothing keeps the last number, slots and time. -/
theorem next_last_of_refused {a : Arbiter} {s : Step} (h : (a.verdict s).accepts = false) :
    (a.next s).lastSequence = a.lastSequence ∧ (a.next s).lastSlots = a.lastSlots ∧
      (a.next s).lastTime = a.lastTime := by
  cases hs : s.heardOn a.universeId with
  | none => rw [next_of_silent hs]; exact ⟨rfl, rfl, rfl⟩
  | some p =>
    rw [verdict_of_heard hs] at h
    rw [next_of_heard hs]
    rcases a.judge_cases p s.time with ⟨-, hj⟩ | ⟨-, -, hj⟩ | ⟨-, -, hj⟩ | ⟨hw, hn, -⟩
    · rw [hj]; exact ⟨rfl, rfl, rfl⟩
    · rw [hj]; exact ⟨rfl, rfl, rfl⟩
    · rw [hj]; exact ⟨rfl, rfl, rfl⟩
    · have := (a.judge_verdict_iff p s.time).2.2.2.2 ⟨hw, hn⟩
      rw [this] at h
      exact absurd h (by decide)

/-- A step that accepts something has a packet that the universe merges. -/
theorem heard_of_accepted {a : Arbiter} {s : Step} (h : (a.verdict s).accepts = true) :
    ∃ p, s.heardOn a.universeId = some p ∧ (a.judge p s.time).1.accepts = true := by
  cases hs : s.heardOn a.universeId with
  | none =>
    rw [verdict_of_silent hs] at h
    rcases a.silence_cases s.time with hv | hv <;> rw [hv] at h <;> exact absurd h (by decide)
  | some p => exact ⟨p, rfl, verdict_of_heard hs ▸ h⟩

/-- A step that accepts a packet takes the last number, slots and time from it. -/
theorem next_last_of_accepted {a : Arbiter} {s : Step} (h : (a.verdict s).accepts = true) :
    ∃ p, s.packet = some p ∧ (a.next s).lastSequence = some p.sequenceNumber ∧
      (a.next s).lastSlots = p.slots ∧ (a.next s).lastTime = s.time := by
  obtain ⟨p, hp, hjudged⟩ := heard_of_accepted h
  refine ⟨p, (packet_of_heardOn hp).1, ?_⟩
  rw [next_of_heard hp, judge_of_accepts hjudged]
  exact ⟨rfl, rfl, rfl⟩

/-- After any run the last number, slots and time are those of the packet accepted last, and are
as they were where nothing was accepted. -/
theorem after_last (a : Arbiter) (steps : List Step) :
    match (a.accepted steps).getLast? with
    | none => (a.after steps).lastSequence = a.lastSequence ∧
        (a.after steps).lastSlots = a.lastSlots ∧ (a.after steps).lastTime = a.lastTime
    | some (p, t) => (a.after steps).lastSequence = some p.sequenceNumber ∧
        (a.after steps).lastSlots = p.slots ∧ (a.after steps).lastTime = t := by
  induction steps using List.reverseRecOn with
  | nil => exact ⟨rfl, rfl, rfl⟩
  | append_singleton past s ih =>
    rw [accepted_append, after_append, after_cons, after_nil]
    by_cases hv : ((a.after past).verdict s).accepts = true
    · obtain ⟨p, hp, hlast⟩ := next_last_of_accepted hv
      simpa [accepted, hv, hp] using hlast
    · have hv' : ((a.after past).verdict s).accepts = false := by simpa using hv
      obtain ⟨h1, h2, h3⟩ := next_last_of_refused hv'
      simpa [accepted, hv', h1, h2, h3] using ih

/-- The packet that a run accepts last. -/
def lastAccepted? (a : Arbiter) (steps : List Step) : Option Packet :=
  ((a.accepted steps).getLast?).map (·.1)

/-- Whether a number is stale is decided by the packet that a run from the start accepted last, and
every number is fresh before the first one. -/
theorem isStale_after_start (u : UniverseId) (timeout start : Nat) (past : List Step) (p : Packet) :
    ((Arbiter.start u timeout start).after past).isStale p = true ↔
      ∃ q, (Arbiter.start u timeout start).lastAccepted? past = some q ∧
        Arbitration.isStale q.sequenceNumber p.sequenceNumber = true := by
  have hlast := (Arbiter.start u timeout start).after_last past
  cases ha : ((Arbiter.start u timeout start).accepted past).getLast? with
  | none =>
    rw [ha] at hlast
    have hnone : ((Arbiter.start u timeout start).after past).lastSequence = none := hlast.1
    simp [isStale, hnone, lastAccepted?, ha]
  | some q =>
    rw [ha] at hlast
    have hsome : ((Arbiter.start u timeout start).after past).lastSequence =
        some q.1.sequenceNumber := hlast.1
    simp [isStale, hsome, lastAccepted?, ha]

end Arbitration.Arbiter

end StreamingAcn
