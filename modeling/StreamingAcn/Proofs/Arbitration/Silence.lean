/-
StreamingAcn.Proofs.Arbitration.Silence — when a universe is told to be silent.

What an arbiter knows besides its sources is the number, the slots and the time of the packet that
it accepted last. A step that brings the universe nothing is measured against that time and changes
nothing at all, so such steps can be put into a run or left out of it and nothing else is judged
differently. Whatever is not accepted leaves that time where it was. A packet that loses or comes
late is refused without a word even where the universe has been silent for too long; the next step
that brings nothing tells of it.

Definition: `marked`, the entries of a list that are marked.

Main statements:

* `verdicts_marked`: steps that bring nothing can be left out;
* `last_after_of_refused`: what is not accepted leaves no trace but in the sources;
* `silence_told_by_last_accepted`: the verdict on silence, for every run;
* `overdue_told_unless_refused`: what is told of a universe that is overdue.
-/
import StreamingAcn.Proofs.Arbitration.Indifference
import StreamingAcn.Proofs.Delivery.Flow

namespace StreamingAcn.Arbitration

open Delivery (Step)

/-! ## Leaving out steps -/

/-- The entries of a list that are marked. -/
def marked {α : Type} (marks : List Bool) (l : List α) : List α :=
  ((l.zip marks).filter (·.2)).map (·.1)

@[simp] theorem marked_nil {α : Type} (marks : List Bool) : marked marks ([] : List α) = [] := rfl

@[simp] theorem marked_cons_true {α : Type} (marks : List Bool) (x : α) (l : List α) :
    marked (true :: marks) (x :: l) = x :: marked marks l := rfl

@[simp] theorem marked_cons_false {α : Type} (marks : List Bool) (x : α) (l : List α) :
    marked (false :: marks) (x :: l) = marked marks l := rfl

/-- Whether every step is marked that brings a universe a packet. -/
def MarksHeard (u : UniverseId) (steps : List Step) (marks : List Bool) : Prop :=
  List.Forall₂ (fun s mark => mark = true ∨ s.heardOn u = none) steps marks

namespace Arbiter

variable {a : Arbiter} {s t : Step}

/-- Where the steps that are left out bring nothing, all others are judged as they were, and the
arbiter at the end is the same. -/
theorem verdicts_marked {steps : List Step} {marks : List Bool}
    (h : MarksHeard a.universeId steps marks) :
    a.verdicts (marked marks steps) = marked marks (a.verdicts steps) ∧
      a.after (marked marks steps) = a.after steps := by
  generalize hu : a.universeId = u at h
  induction h generalizing a with
  | nil => exact ⟨rfl, rfl⟩
  | @cons s mark rest marks head tail ih =>
    cases mark with
    | true =>
      obtain ⟨hverdicts, hafter⟩ := ih (a := a.next s) (by simpa using hu)
      simp [verdicts, hverdicts, hafter]
    | false =>
      have hsilent : s.heardOn a.universeId = none := by simpa [hu] using head
      obtain ⟨hverdicts, hafter⟩ := ih hu
      simp [verdicts, next_of_silent hsilent, hverdicts, hafter]

/-! ## The last time -/

/-- A step that brings nothing is measured against the last time. -/
theorem verdict_of_silent_eq (h : s.heardOn a.universeId = none) :
    a.verdict s = if a.lastTime + a.timeout < s.time then .timedOut else .idle := by
  rw [verdict_of_silent h, silence]
  exact if_congr lapsed_iff rfl rfl

/-- Steps of which none is accepted leave the last number, slots and time as they were. -/
theorem last_after_of_refused {steps : List Step}
    (h : ∀ v ∈ a.verdicts steps, v.accepts = false) :
    (a.after steps).lastSequence = a.lastSequence ∧ (a.after steps).lastSlots = a.lastSlots ∧
      (a.after steps).lastTime = a.lastTime := by
  induction steps generalizing a with
  | nil => exact ⟨rfl, rfl, rfl⟩
  | cons s rest ih =>
    rw [verdicts, List.forall_mem_cons] at h
    obtain ⟨hsequence, hslots, htime⟩ := next_last_of_refused h.1
    obtain ⟨hsequence', hslots', htime'⟩ := ih h.2
    exact ⟨hsequence'.trans hsequence, hslots'.trans hslots, htime'.trans htime⟩

/-- Steps of which none is accepted do not change the verdict on a step that brings nothing. -/
theorem verdict_after_of_refused {later : List Step}
    (h : ∀ v ∈ a.verdicts later, v.accepts = false) (ht : t.heardOn a.universeId = none) :
    (a.after later).verdict t = a.verdict t := by
  have ht' : t.heardOn (a.after later).universeId = none := by rwa [after_universeId]
  rw [verdict_of_silent_eq ht', verdict_of_silent_eq ht, (last_after_of_refused h).2.2,
    after_timeout]

/-- A universe that is overdue stays so until a packet is accepted. -/
theorem timedOut_after_of_refused {later : List Step}
    (h : ∀ v ∈ a.verdicts later, v.accepts = false) (hs : a.lastTime + a.timeout < s.time)
    (ht : t.heardOn a.universeId = none) (hle : s.time ≤ t.time) :
    (a.after later).verdict t = .timedOut := by
  rw [verdict_after_of_refused h ht, verdict_of_silent_eq ht, if_pos (Nat.lt_of_lt_of_le hs hle)]

end Arbiter

/-- After any steps, at whatever times, an arbiter knows the number, the slots and the time of the
packet accepted last. A step that brings nothing changes nothing, and finds the universe silent
exactly if it comes more than the timeout after that time. Such steps can be left out of the run, or
put into it, and all others are judged as they were. No step that is not accepted puts the verdict
off, and once a universe was found silent it is at every later step that brings nothing, until a
packet is accepted. -/
theorem silence_told_by_last_accepted (u : UniverseId) (timeout start : Nat) (steps : List Step) :
    let fresh := Arbiter.start u timeout start
    let a := fresh.after steps
    (a.lastSequence, a.lastSlots, a.lastTime) =
        (match (fresh.accepted steps).getLast? with
        | none => (none, [], start)
        | some (p, t) => (some p.sequenceNumber, p.slots, t)) ∧
      (∀ s, s.heardOn u = none → a.next s = a ∧
        a.verdict s = if a.lastTime + timeout < s.time then .timedOut else .idle) ∧
      (∀ marks, MarksHeard u steps marks →
        fresh.verdicts (marked marks steps) = marked marks (fresh.verdicts steps) ∧
          fresh.after (marked marks steps) = a) ∧
      (∀ later, (∀ v ∈ a.verdicts later, v ≠ .emitted ∧ v ≠ .unchanged) →
        ∀ t, t.heardOn u = none → (a.after later).verdict t = a.verdict t ∧
          ∀ s, s.heardOn u = none → a.verdict s = .timedOut → s.time ≤ t.time →
            (a.after later).verdict t = .timedOut) := by
  intro fresh a
  have hu : a.universeId = u := fresh.after_universeId steps
  have htimeout : a.timeout = timeout := fresh.after_timeout steps
  have hsilent : ∀ s, s.heardOn u = none →
      a.verdict s = if a.lastTime + timeout < s.time then .timedOut else .idle := by
    intro s hs
    rw [← htimeout]
    exact Arbiter.verdict_of_silent_eq (hu.symm ▸ hs)
  refine ⟨?_, ?_, ?_, ?_⟩
  · have hlast := fresh.after_last steps
    cases hacc : (fresh.accepted steps).getLast? with
    | none =>
      rw [hacc] at hlast
      obtain ⟨hsequence, hslots, htime⟩ := hlast
      exact Prod.ext hsequence (Prod.ext hslots htime)
    | some x =>
      rw [hacc] at hlast
      obtain ⟨hsequence, hslots, htime⟩ := hlast
      exact Prod.ext hsequence (Prod.ext hslots htime)
  · exact fun s hs => ⟨Arbiter.next_of_silent (hu.symm ▸ hs), hsilent s hs⟩
  · exact fun marks hmarks => Arbiter.verdicts_marked hmarks
  · intro later hlater t ht
    have hrefused : ∀ v ∈ a.verdicts later, v.accepts = false := by
      intro v hv
      obtain ⟨hemitted, hunchanged⟩ := hlater v hv
      cases v <;> simp_all [Verdict.accepts]
    refine ⟨Arbiter.verdict_after_of_refused hrefused (hu.symm ▸ ht), ?_⟩
    intro s hs hv hle
    refine Arbiter.timedOut_after_of_refused hrefused ?_ (hu.symm ▸ ht) hle
    rw [hsilent s hs] at hv
    rw [htimeout]
    by_contra hlt
    rw [if_neg hlt] at hv
    cases hv

/-- A universe is found silent by a packet of another kind, at the time at which a step without one
found it silent, and a loser and a repeated packet in between do not put this off. Two steps that
bring nothing, one of them late and one from before the packet, can be left out of the run. -/
theorem silence_told_by_last_accepted_amid_refusals :
    let first : Packet := { universeId := 1, sequenceNumber := 7, slots := [1] }
    let rival : Packet :=
      { universeId := 1, cid := ⟨List.replicate 16 1, by decide⟩, priority := 50,
        sequenceNumber := 7, slots := [2] }
    let steps : List Step := [⟨some first, 10⟩, ⟨none, 3000⟩,
      ⟨some { rival with universeId := 2 }, 5⟩, ⟨some rival, 20⟩]
    let later : List Step := [⟨some rival, 2505⟩, ⟨some first, 2600⟩]
    let fresh := Arbiter.start 1 2500 0
    fresh.verdicts steps = [.emitted, .timedOut, .idle, .dropped] ∧
      fresh.verdicts [⟨some first, 10⟩, ⟨some rival, 20⟩] = [.emitted, .dropped] ∧
      (fresh.after steps).verdicts later = [.dropped, .stale] ∧
      (fresh.after steps).verdict ⟨none, 2511⟩ = .timedOut ∧
      ((fresh.after steps).after later).verdict ⟨some { first with startCode := 0xdd }, 2511⟩ =
        .timedOut := by
  intro first rival steps later fresh
  obtain ⟨-, hsilent, hmarked, hlater⟩ := silence_told_by_last_accepted 1 2500 0 steps
  have hverdicts : fresh.verdicts steps = [.emitted, .timedOut, .idle, .dropped] := by
    decide +kernel
  have hmarks : MarksHeard 1 steps [true, false, false, true] :=
    .cons (.inl rfl) (.cons (.inr rfl) (.cons (.inr rfl) (.cons (.inl rfl) .nil)))
  have hrefused : (fresh.after steps).verdicts later = [.dropped, .stale] := by decide +kernel
  have htimedOut : (fresh.after steps).verdict ⟨none, 2511⟩ = .timedOut :=
    (hsilent ⟨none, 2511⟩ rfl).2.trans (by decide +kernel)
  refine ⟨hverdicts, ?_, hrefused, htimedOut, ?_⟩
  · exact (hmarked _ hmarks).1.trans (by rw [hverdicts]; rfl)
  · refine (hlater later ?_ _ (by decide)).2 ⟨none, 2511⟩ rfl htimedOut (by decide)
    intro v hv
    rw [hrefused] at hv
    cases v <;> simp_all

/-! ## What is told of a universe that is overdue -/

namespace Arbiter

/-- The verdicts on a step that is not accepted, by what the step brings and who leads after it. -/
theorem verdict_of_refused {a : Arbiter} {s : Step} (h : (a.verdict s).accepts = false) :
    (s.heardOn a.universeId = none ∧ (a.verdict s = .timedOut ∨ a.verdict s = .idle)) ∨
      ∃ p, s.heardOn a.universeId = some p ∧
        ((1 < (a.next s).sources.winners.length ∧ a.verdict s = .conflict) ∨
          ((a.next s).sources.winners.length ≤ 1 ∧
            (a.verdict s = .dropped ∨ a.verdict s = .stale))) := by
  cases hs : s.heardOn a.universeId with
  | none =>
    rw [verdict_of_silent hs]
    exact .inl ⟨rfl, a.silence_cases s.time⟩
  | some p =>
    refine .inr ⟨p, rfl, ?_⟩
    rw [verdict_of_heard hs] at h ⊢
    rw [next_of_heard hs, judge_sources]
    rcases a.judge_cases p s.time with ⟨hlen, hj⟩ | ⟨hlen, -, hj⟩ | ⟨hone, -, hj⟩ | ⟨hone, hn, -⟩
    · exact .inl ⟨hlen, congrArg Prod.fst hj⟩
    · exact .inr ⟨hlen, .inl (congrArg Prod.fst hj)⟩
    · refine .inr ⟨?_, .inr (congrArg Prod.fst hj)⟩
      exact Nat.le_of_eq (congrArg List.length hone)
    · rw [(a.judge_verdict_iff p s.time).2.2.2.2 ⟨hone, hn⟩] at h
      cases h

end Arbiter

/-- A universe on which nothing was accepted for more than the timeout is reported silent by every
step that brings it nothing, and in conflict by a packet after which several sources lead. A packet
that loses or comes late is refused without a report. Whatever is refused, the next step that brings
nothing reports that the universe is silent, until a packet is accepted. -/
theorem overdue_told_unless_refused (u : UniverseId) (timeout start : Nat) (past : List Step)
    (s : Step) :
    let a := (Arbiter.start u timeout start).after past
    a.lastTime + timeout < s.time → (a.verdict s).accepts = false →
      ((s.heardOn u = none ∧ a.verdict s = .timedOut ∧ a.item? s = some (.report ⟨u, .timeout⟩)) ∨
        (∃ p, s.heardOn u = some p ∧ 1 < (a.next s).sources.winners.length ∧
          a.verdict s = .conflict ∧ a.item? s = some (.report ⟨u, .sourcesExceeded⟩)) ∨
        (∃ p, s.heardOn u = some p ∧ (a.next s).sources.winners.length ≤ 1 ∧
          (a.verdict s = .dropped ∨ a.verdict s = .stale) ∧ a.item? s = none)) ∧
      ∀ later, (∀ v ∈ (a.next s).verdicts later, v.accepts = false) →
        ∀ t, t.heardOn u = none → s.time ≤ t.time →
          ((a.next s).after later).verdict t = .timedOut ∧
            ((a.next s).after later).item? t = some (.report ⟨u, .timeout⟩) := by
  intro a hoverdue hrefused
  have hu : a.universeId = u := Arbiter.after_universeId _ past
  have htimeout : a.timeout = timeout := Arbiter.after_timeout _ past
  have hitem : ∀ b : Arbiter, ∀ x, b.universeId = u → b.verdict x = .timedOut →
      b.item? x = some (.report ⟨u, .timeout⟩) := by
    intro b x hb hv
    rw [Arbiter.item?, hv, hb]
    rfl
  constructor
  · rcases Arbiter.verdict_of_refused hrefused with ⟨hs, -⟩ | ⟨p, hs, ⟨hlen, hv⟩ | ⟨hlen, hv⟩⟩
    · have hv : a.verdict s = .timedOut := by
        rw [Arbiter.verdict_of_silent_eq hs, htimeout, if_pos hoverdue]
      exact .inl ⟨hu ▸ hs, hv, hitem a s hu hv⟩
    · refine .inr (.inl ⟨p, hu ▸ hs, hlen, hv, ?_⟩)
      rw [Arbiter.item?, hv, hu]
      rfl
    · refine .inr (.inr ⟨p, hu ▸ hs, hlen, hv, ?_⟩)
      rcases hv with hv | hv <;> rw [Arbiter.item?, hv] <;> rfl
  · intro later hlater t ht hle
    have hnext : (a.next s).lastTime = a.lastTime := (Arbiter.next_last_of_refused hrefused).2.2
    have hv : ((a.next s).after later).verdict t = .timedOut := by
      refine Arbiter.timedOut_after_of_refused (s := s) hlater ?_ ?_ hle
      · rw [hnext, Arbiter.next_timeout, htimeout]
        exact hoverdue
      · rw [Arbiter.next_universeId, hu]
        exact ht
    refine ⟨hv, hitem _ t ?_ hv⟩
    rw [Arbiter.after_universeId, Arbiter.next_universeId, hu]

/-- The one source of a universe repeats a packet after the timeout: the universe is overdue and
nothing is told of it. A moment later a step that brings nothing tells of it. -/
theorem overdue_told_unless_refused_repeated :
    let packet : Packet := { universeId := 1, sequenceNumber := 5, slots := [1] }
    let a := (Arbiter.start 1 2500 0).after [⟨some packet, 0⟩]
    a.verdict ⟨some packet, 2501⟩ = .stale ∧ a.item? ⟨some packet, 2501⟩ = none ∧
      (a.next ⟨some packet, 2501⟩).item? ⟨none, 2502⟩ = some (.report ⟨1, .timeout⟩) := by
  intro packet a
  have hstale : a.verdict ⟨some packet, 2501⟩ = .stale := by decide +kernel
  have hoverdue : a.lastTime + 2500 < 2501 := by decide +kernel
  obtain ⟨htold, hlater⟩ := overdue_told_unless_refused 1 2500 0 [⟨some packet, 0⟩]
    ⟨some packet, 2501⟩ hoverdue (by rw [hstale]; rfl)
  refine ⟨hstale, ?_, (hlater [] (by simp [Arbiter.verdicts]) ⟨none, 2502⟩ rfl (by decide)).2⟩
  rcases htold with ⟨hnone, -⟩ | ⟨p, -, -, hv, -⟩ | ⟨p, -, -, -, hnone⟩
  · cases hnone
  · rw [hstale] at hv
    cases hv
  · exact hnone

/-- It is not so that every step on an overdue universe is told of that is not accepted. -/
theorem repeated_packet_hides_silence :
    ¬ ∀ (u : UniverseId) (timeout start : Nat) (past : List Step) (s : Step),
      InOrder (past ++ [s]) →
      let a := (Arbiter.start u timeout start).after past
      a.lastTime + timeout < s.time → (a.verdict s).accepts = false →
        a.verdict s = .timedOut ∨ a.verdict s = .conflict := by
  intro h
  let packet : Packet := { universeId := 1, sequenceNumber := 5, slots := [1] }
  have hverdict : ((Arbiter.start 1 2500 0).after [⟨some packet, 0⟩]).verdict
      ⟨some packet, 2501⟩ = .stale := by decide +kernel
  have htold := h 1 2500 0 [⟨some packet, 0⟩] ⟨some packet, 2501⟩ (by decide) (by decide +kernel)
    (by decide +kernel)
  rw [hverdict] at htold
  rcases htold with hv | hv <;> cases hv

end StreamingAcn.Arbitration
