/-
StreamingAcn.Proofs.Arbitration.Freshness — whose numbers a packet is compared with.

A universe remembers one number: that of the packet accepted last, whichever source sent it. So the
numbers of two sources that follow each other on a universe are compared with each other, and a new
winner whose count happens to stand shortly behind that of the old one is held up until its count
has passed it. `refused_iff_behind_last_accepted` says exactly when that is so, for every run;
`first_packet_of_winner_refused` is the smallest case in which a source that was never accepted
before is refused for its number.
-/
import StreamingAcn.Proofs.Arbitration.Run

namespace StreamingAcn.Arbitration

open Delivery (Step)

/-- A number is stale if it is at most 19 behind the last one, counted modulo 256. -/
theorem isStale_iff (last next : UInt8) :
    isStale last next = true ↔ ((last.toNat : Int) - next.toNat) % 256 < 20 := by
  have hl := last.toNat_lt
  have hn := next.toNat_lt
  simp only [isStale, decide_eq_true_eq, UInt8.lt_iff_toNat_lt, UInt8.toNat_sub]
  show (2 ^ 8 - next.toNat + last.toNat) % 2 ^ 8 < 20 ↔ _
  omega

namespace Arbiter

/-- The verdict on a step that carries no packet of the universe is none of those on packets. -/
theorem verdict_of_silent_ne {a : Arbiter} {s : Step} (h : s.heardOn a.universeId = none) :
    a.verdict s ≠ .stale ∧ (a.verdict s).accepts = false := by
  rw [verdict_of_silent h]
  rcases a.silence_cases s.time with hv | hv <;> rw [hv] <;> exact ⟨by decide, rfl⟩

/-- Which steps are refused for their number and which are accepted, by the winners after the step
and the number of the arbiter before it. -/
theorem verdict_by_number (a : Arbiter) (s : Step) :
    (a.verdict s = .stale ↔ ∃ p, s.heardOn a.universeId = some p ∧
      (a.next s).sources.winners = [p.cid] ∧ a.isStale p = true) ∧
    ((a.verdict s).accepts = true ↔ ∃ p, s.heardOn a.universeId = some p ∧
      (a.next s).sources.winners = [p.cid] ∧ a.isStale p = false) := by
  cases h : s.heardOn a.universeId with
  | none =>
    obtain ⟨h1, h2⟩ := verdict_of_silent_ne h
    simp [h1, h2]
  | some p =>
    obtain ⟨-, -, hstale, haccepts⟩ := a.judge_verdict_iff p s.time
    rw [verdict_of_heard h, next_of_heard h, judge_sources, hstale, haccepts]
    constructor
    · exact ⟨fun hs => ⟨p, rfl, hs⟩, fun ⟨q, hq, hs⟩ => Option.some.inj hq ▸ hs⟩
    · exact ⟨fun hs => ⟨p, rfl, hs⟩, fun ⟨q, hq, hs⟩ => Option.some.inj hq ▸ hs⟩

end Arbiter

/-- A packet is refused for its number if and only if its source is the only winner and the packet
accepted last on the universe, from whichever source, has a number at most 19 ahead of it. A packet
of the only winner is accepted in every other case, and always where none was accepted before. -/
theorem refused_iff_behind_last_accepted (u : UniverseId) (timeout start : Nat) (past : List Step)
    (s : Step) :
    let fresh := Arbiter.start u timeout start
    let verdict := (fresh.after past).verdict s
    let winners := ((fresh.after past).next s).sources.winners
    (verdict = .stale ↔ ∃ p, s.heardOn u = some p ∧ winners = [p.cid] ∧
      ∃ q, fresh.lastAccepted? past = some q ∧
        ((q.sequenceNumber.toNat : Int) - p.sequenceNumber.toNat) % 256 < 20) ∧
    (verdict.accepts = true ↔ ∃ p, s.heardOn u = some p ∧ winners = [p.cid] ∧
      ∀ q, fresh.lastAccepted? past = some q →
        20 ≤ ((q.sequenceNumber.toNat : Int) - p.sequenceNumber.toNat) % 256) := by
  intro fresh verdict winners
  obtain ⟨hstale, haccepts⟩ := (fresh.after past).verdict_by_number s
  rw [show (fresh.after past).universeId = u from fresh.after_universeId past] at hstale haccepts
  have hfresh := Arbiter.isStale_after_start u timeout start past
  simp only [isStale_iff] at hfresh
  constructor
  · show (fresh.after past).verdict s = .stale ↔ _
    rw [hstale]
    refine exists_congr fun p => and_congr_right fun _ => and_congr_right fun _ => hfresh p
  · show ((fresh.after past).verdict s).accepts = true ↔ _
    rw [haccepts]
    refine exists_congr fun p => and_congr_right fun _ => and_congr_right fun _ => ?_
    rw [← Bool.not_eq_true, hfresh p]
    constructor
    · intro hn q hq
      exact Int.not_lt.1 fun hlt => hn ⟨q, hq, hlt⟩
    · rintro hall ⟨q, hq, hlt⟩
      exact absurd hlt (Int.not_lt.2 (hall q hq))

/-- The number of a packet is not held against the packets of its own source alone: a source can be
refused for its number before any packet of it was accepted. -/
theorem first_packet_of_winner_refused :
    ¬ ∀ (u : UniverseId) (timeout start : Nat) (past : List Step) (p : Packet) (now : Nat),
      InOrder (past ++ [⟨some p, now⟩]) →
      ((Arbiter.start u timeout start).after past).verdict ⟨some p, now⟩ = .stale →
      ∃ q, (((Arbiter.start u timeout start).accepted past).filter
          (·.1.cid = p.cid)).getLast? = some q ∧
        ((q.1.sequenceNumber.toNat : Int) - p.sequenceNumber.toNat) % 256 < 20 := by
  intro h
  let old : Packet := { universeId := 1, sequenceNumber := 10, slots := [1] }
  let new : Packet :=
    { universeId := 1, cid := ⟨List.replicate 16 1, by decide⟩, priority := 200,
      sequenceNumber := 10, slots := [2] }
  obtain ⟨q, hq, -⟩ := h 1 2500 0 [⟨some old, 0⟩] new 1 (by decide) (by decide +kernel)
  have hnone : (((Arbiter.start 1 2500 0).accepted [⟨some old, 0⟩]).filter
      (·.1.cid = new.cid)).getLast? = none := by decide +kernel
  rw [hnone] at hq
  exact absurd hq (by simp)

end StreamingAcn.Arbitration
