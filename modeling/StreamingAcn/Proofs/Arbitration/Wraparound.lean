/-
StreamingAcn.Proofs.Arbitration.Wraparound — one source and a count that goes round.

A source counts its packets without end, and a packet carries its place in the count modulo 256. A
universe that hears this source alone sees the remainders only. As long as every packet comes at
most 19 places behind the one accepted last and at most 236 places ahead of it, the remainders are
enough: a packet is accepted exactly if it is newer than all that were accepted before, however
often the count has gone round.

Definitions:

* `Arrival`: a step with the place of its packet in the count;
* `acceptedIndices`, `lastIndex?`: the places of the packets that a run accepts, and the last one;
* `InReach`: every packet comes near enough to the one accepted last.

Main statements:

* `isStale_ofNat_iff_of_near`: the comparison of remainders against that of places;
* `accepted_iff_newer`.
-/
import StreamingAcn.Proofs.Arbitration.Freshness
import StreamingAcn.Proofs.Arbitration.Winning
import Mathlib.Data.List.Chain

namespace StreamingAcn.Arbitration

open Delivery (Step)

/-! ## Remainders -/

/-- Two places in a count are compared by their distance modulo 256. -/
theorem isStale_ofNat_iff (last next : Nat) :
    isStale (UInt8.ofNat last) (UInt8.ofNat next) = true ↔ ((last : Int) - next) % 256 < 20 := by
  rw [isStale_iff, UInt8.toNat_ofNat', UInt8.toNat_ofNat']
  omega

/-- From 19 places behind the last one to 236 places ahead of it, a place is stale exactly if it is
not ahead. -/
theorem isStale_ofNat_iff_of_near {last next : Nat} (behind : last ≤ next + 19)
    (ahead : next ≤ last + 236) :
    isStale (UInt8.ofNat last) (UInt8.ofNat next) = true ↔ next ≤ last := by
  rw [isStale_ofNat_iff]
  omega

/-- One place further on either side the answer is the opposite one. -/
example : isStale (UInt8.ofNat 1000) (UInt8.ofNat 980) = false ∧
    isStale (UInt8.ofNat 1000) (UInt8.ofNat 981) = true ∧
    isStale (UInt8.ofNat 1000) (UInt8.ofNat 1236) = false ∧
    isStale (UInt8.ofNat 1000) (UInt8.ofNat 1237) = true := by decide

/-! ## A universe with one source -/

/-- Where only one source has a standing, it is the only winner. -/
theorem SourceTable.winners_of_only {t : SourceTable} {c : Cid} {s : Standing}
    (hs : t.find? c = some s) (only : ∀ d s', t.find? d = some s' → d = c) : t.winners = [c] := by
  rw [eq_singleton_iff_of_nodup t.winners_nodup]
  intro d
  rw [SourceTable.mem_winners_iff]
  constructor
  · rintro ⟨s', hd, -⟩
    exact only d s' hd
  · rintro rfl
    refine ⟨s, hs, ?_⟩
    intro e s' he
    obtain rfl := only e s' he
    rw [hs, Option.some.injEq] at he
    exact he ▸ UInt8.le_refl _

/-- A step and the place that its packet, if it brings one, has in the count of its source. -/
structure Arrival where
  index : Nat
  step : Step
  deriving DecidableEq

/-- What a universe hears in an arrival is from one source, and numbered by its place. -/
def Arrival.IsFrom (u : UniverseId) (c : Cid) (x : Arrival) : Prop :=
  ∀ p, x.step.heardOn u = some p → p.cid = c ∧ p.sequenceNumber = UInt8.ofNat x.index

/-- The steps of some arrivals. -/
def stepsOf (arrivals : List Arrival) : List Step := arrivals.map Arrival.step

/-- The places of the arrivals that a universe hears. -/
def heardIndices (u : UniverseId) (arrivals : List Arrival) : List Nat :=
  (arrivals.filter fun x => (x.step.heardOn u).isSome).map Arrival.index

namespace Arbiter

/-- The places of the arrivals that a run accepts, oldest first. -/
def acceptedIndices (a : Arbiter) : List Arrival → List Nat
  | [] => []
  | x :: rest =>
    (if (a.verdict x.step).accepts then [x.index] else []) ++ (a.next x.step).acceptedIndices rest

/-- The place of the arrival that a run accepts last. -/
def lastIndex? (a : Arbiter) (arrivals : List Arrival) : Option Nat :=
  (a.acceptedIndices arrivals).getLast?

theorem acceptedIndices_concat (a : Arbiter) (past : List Arrival) (x : Arrival) :
    a.acceptedIndices (past ++ [x]) = a.acceptedIndices past ++
      (if ((a.after (stepsOf past)).verdict x.step).accepts then [x.index] else []) := by
  induction past generalizing a with
  | nil => simp [acceptedIndices, stepsOf]
  | cons y rest ih =>
    rw [List.cons_append, acceptedIndices, ih, acceptedIndices, List.append_assoc]
    rfl

theorem lastIndex?_concat (a : Arbiter) (past : List Arrival) (x : Arrival) :
    a.lastIndex? (past ++ [x]) =
      if ((a.after (stepsOf past)).verdict x.step).accepts then some x.index
      else a.lastIndex? past := by
  rw [lastIndex?, acceptedIndices_concat]
  split
  · rw [List.getLast?_concat]
  · rw [List.append_nil, lastIndex?]

/-- An arbiter that has heard one source at most, and whose last number is that of a place. -/
structure Follows (c : Cid) (last : Option Nat) (a : Arbiter) : Prop where
  alone : ∀ d s, a.sources.find? d = some s → d = c
  number : a.lastSequence = last.map UInt8.ofNat

variable {c : Cid} {last : Option Nat} {a : Arbiter} {u : UniverseId}

theorem follows_start (u : UniverseId) (timeout start : Nat) (c : Cid) :
    Follows c none (Arbiter.start u timeout start) := by
  refine ⟨?_, rfl⟩
  intro d s h
  simp [Arbiter.start] at h

/-- Whoever was heard is the source that is heard now, or was heard before. -/
theorem Follows.heard (h : Follows c last a) {p : Packet} (hc : p.cid = c) (now : Nat) :
    ∀ d s, (a.hear p now).sources.find? d = some s → d = c := by
  intro d s hd
  rw [hear, SourceTable.find?_hear] at hd
  split at hd
  · next hcid => exact hcid.symm.trans hc
  · exact h.alone d s (Option.filter_eq_some_iff.1 hd).1

/-- The only source that is heard wins. -/
theorem Follows.winnersOn (h : Follows c last a) {p : Packet} (hc : p.cid = c) (now : Nat) :
    a.winnersOn p now = [p.cid] := by
  obtain ⟨s, hs⟩ : ∃ s, (a.hear p now).sources.find? p.cid = some s := by
    rw [hear, SourceTable.find?_hear, if_pos rfl]
    exact ⟨_, rfl⟩
  refine SourceTable.winners_of_only hs ?_
  intro d s' hd
  exact (h.heard hc now d s' hd).trans hc.symm

/-- A packet of the only source is accepted or refused by its place alone. -/
theorem Follows.verdict_iff (h : Follows c last a) {x : Arrival} (hx : x.IsFrom a.universeId c)
    (hheard : (x.step.heardOn a.universeId).isSome) :
    ((a.verdict x.step).accepts = true ↔
      ∀ m, last = some m →
        Arbitration.isStale (UInt8.ofNat m) (UInt8.ofNat x.index) = false) ∧
    (a.verdict x.step = .stale ↔
      ∃ m, last = some m ∧
        Arbitration.isStale (UInt8.ofNat m) (UInt8.ofNat x.index) = true) := by
  obtain ⟨p, hp⟩ := Option.isSome_iff_exists.1 hheard
  obtain ⟨hc, hn⟩ := hx p hp
  obtain ⟨-, -, hstale, haccepts⟩ := a.judge_verdict_iff p x.step.time
  have hwins := h.winnersOn hc x.step.time
  rw [verdict_of_heard hp, hstale, haccepts, isStale, h.number]
  simp only [hwins, true_and]
  cases last with
  | none => simp
  | some m => simp [hn]

/-- What was accepted last goes on as the last number. -/
theorem Follows.next (h : Follows c last a) {x : Arrival} (hx : x.IsFrom a.universeId c) :
    Follows c (if (a.verdict x.step).accepts then some x.index else last) (a.next x.step) := by
  cases hp : x.step.heardOn a.universeId with
  | none =>
    rw [(verdict_of_silent_ne hp).2, next_of_silent hp]
    exact h
  | some p =>
    obtain ⟨hc, hn⟩ := hx p hp
    refine ⟨?_, ?_⟩
    · rw [next_of_heard hp, judge_sources]
      exact h.heard hc x.step.time
    · split
      · next hv =>
        obtain ⟨q, hq, hlast, -⟩ := next_last_of_accepted hv
        obtain rfl : p = q := by simpa [(packet_of_heardOn hp).1] using hq
        rw [hlast, hn, Option.map_some]
      · next hv =>
        rw [(next_last_of_refused (by simpa using hv)).1]
        exact h.number

/-- After any run the last number is that of the place accepted last. -/
theorem follows_after {timeout start : Nat} {arrivals : List Arrival}
    (source : ∀ x ∈ arrivals, x.IsFrom u c) :
    Follows c ((Arbiter.start u timeout start).lastIndex? arrivals)
      ((Arbiter.start u timeout start).after (stepsOf arrivals)) := by
  induction arrivals using List.reverseRecOn with
  | nil => exact follows_start u timeout start c
  | append_singleton past x ih =>
    have hpast := ih fun y hy => source y (List.mem_append_left _ hy)
    have hx : x.IsFrom ((Arbiter.start u timeout start).after (stepsOf past)).universeId c := by
      rw [after_universeId]
      exact source x (by simp)
    have hsteps : stepsOf (past ++ [x]) = stepsOf past ++ [x.step] := List.map_append
    rw [lastIndex?_concat, hsteps, after_append]
    exact hpast.next hx

end Arbiter

/-! ## Runs -/

/-- Every packet comes at most 19 places behind the one accepted last and at most 236 ahead. -/
def InReach (u : UniverseId) (a : Arbiter) (arrivals : List Arrival) : Prop :=
  ∀ past x later, arrivals = past ++ x :: later → (x.step.heardOn u).isSome →
    ∀ m, a.lastIndex? past = some m → m ≤ x.index + 19 ∧ x.index ≤ m + 236

section Run

variable {u : UniverseId} {c : Cid} {timeout start : Nat} {arrivals past later : List Arrival}
  {x : Arrival}

/-- One more arrival is in reach if it is near enough to the place accepted last before it. -/
theorem InReach.concat {a : Arbiter} (near : InReach u a past)
    (h : (x.step.heardOn u).isSome →
      ∀ m, a.lastIndex? past = some m → m ≤ x.index + 19 ∧ x.index ≤ m + 236) :
    InReach u a (past ++ [x]) := by
  intro earlier y rest hsplit hheard m hm
  rcases List.eq_nil_or_concat' rest with rfl | ⟨rest, z, rfl⟩
  · obtain ⟨rfl, rfl⟩ := List.append_inj' hsplit rfl |>.imp id List.singleton_inj.1
    exact h hheard m hm
  · rw [← List.cons_append, ← List.append_assoc] at hsplit
    exact near earlier y rest (List.append_inj' hsplit rfl).1 hheard m hm

/-- Only what the universe hears is accepted. -/
theorem isSome_heardOn_of_accepts
    (h : (((Arbiter.start u timeout start).after (stepsOf past)).verdict x.step).accepts = true) :
    (x.step.heardOn u).isSome = true := by
  obtain ⟨p, hp, -⟩ := Arbiter.heard_of_accepted h
  rw [Arbiter.after_universeId] at hp
  exact Option.isSome_iff_exists.2 ⟨p, hp⟩

/-- What becomes of an arrival, told by the place accepted last before it. -/
theorem verdict_after_iff (source : ∀ y ∈ past ++ x :: later, y.IsFrom u c)
    (heard : (x.step.heardOn u).isSome) :
    let fresh := Arbiter.start u timeout start
    let verdict := (fresh.after (stepsOf past)).verdict x.step
    (verdict.accepts = true ↔ ∀ m, fresh.lastIndex? past = some m →
      isStale (UInt8.ofNat m) (UInt8.ofNat x.index) = false) ∧
    (verdict = .stale ↔ ∃ m, fresh.lastIndex? past = some m ∧
      isStale (UInt8.ofNat m) (UInt8.ofNat x.index) = true) := by
  intro fresh verdict
  have hfollows : Arbiter.Follows c (fresh.lastIndex? past) (fresh.after (stepsOf past)) :=
    Arbiter.follows_after fun y hy => source y (List.mem_append_left _ hy)
  have hu : (fresh.after (stepsOf past)).universeId = u := fresh.after_universeId _
  refine hfollows.verdict_iff ?_ ?_
  · rw [hu]
    exact source x (by simp)
  · rw [hu]
    exact heard

/-- An arrival in reach is accepted exactly if it is newer than what was accepted last. -/
theorem verdict_iff_of_inReach (source : ∀ y ∈ past ++ x :: later, y.IsFrom u c)
    (near : InReach u (Arbiter.start u timeout start) (past ++ x :: later))
    (heard : (x.step.heardOn u).isSome) :
    let fresh := Arbiter.start u timeout start
    let verdict := (fresh.after (stepsOf past)).verdict x.step
    (verdict.accepts = true ↔ ∀ m, fresh.lastIndex? past = some m → m < x.index) ∧
    (verdict = .stale ↔ ∃ m, fresh.lastIndex? past = some m ∧ x.index ≤ m) := by
  intro fresh verdict
  obtain ⟨haccepts, hstale⟩ := @verdict_after_iff u c timeout start past later x source heard
  have hnear : ∀ m, fresh.lastIndex? past = some m →
      (isStale (UInt8.ofNat m) (UInt8.ofNat x.index) = true ↔ x.index ≤ m) := by
    intro m hm
    obtain ⟨hbehind, hahead⟩ := near past x later rfl heard m hm
    exact isStale_ofNat_iff_of_near hbehind hahead
  refine ⟨haccepts.trans ?_, hstale.trans ?_⟩
  · refine forall_congr' fun m => forall_congr' fun hm => ?_
    rw [← Bool.not_eq_true, hnear m hm, Nat.not_le]
  · refine exists_congr fun m => and_congr_right fun hm => hnear m hm

theorem InReach.of_append (near : InReach u (Arbiter.start u timeout start) (past ++ later)) :
    InReach u (Arbiter.start u timeout start) past := by
  intro earlier y rest hpast
  refine near earlier y (rest ++ later) ?_
  rw [hpast, List.append_assoc, List.cons_append]

/-- The last of an increasing row of numbers is the largest. -/
theorem le_last_of_increasing {l : List Nat} {m : Nat} (h : l.Pairwise (· < ·))
    (hm : l.getLast? = some m) : ∀ i ∈ l, i ≤ m := by
  obtain ⟨front, rfl⟩ := List.getLast?_eq_some_iff.1 hm
  intro i hi
  rcases List.mem_append.1 hi with hi | hi
  · exact Nat.le_of_lt ((List.pairwise_append.1 h).2.2 i hi m (by simp))
  · exact Nat.le_of_eq (List.mem_singleton.1 hi)

/-- A run in which every arrival is in reach accepts later and later places. -/
theorem acceptedIndices_increasing (source : ∀ y ∈ arrivals, y.IsFrom u c)
    (near : InReach u (Arbiter.start u timeout start) arrivals) :
    ((Arbiter.start u timeout start).acceptedIndices arrivals).Pairwise (· < ·) := by
  induction arrivals using List.reverseRecOn with
  | nil => exact .nil
  | append_singleton past x ih =>
    have hpast := ih (fun y hy => source y (List.mem_append_left _ hy)) near.of_append
    rw [Arbiter.acceptedIndices_concat]
    split
    · next hv =>
      refine List.pairwise_append.2 ⟨hpast, List.pairwise_singleton _ _, ?_⟩
      intro i hi j hj
      obtain rfl := List.mem_singleton.1 hj
      -- Something was accepted before, so there is a last place, and the new one is ahead of it.
      obtain ⟨m, hm⟩ : ∃ m, (Arbiter.start u timeout start).lastIndex? past = some m :=
        ⟨_, List.getLast?_eq_some_getLast (List.ne_nil_of_mem hi)⟩
      have hheard := isSome_heardOn_of_accepts hv
      have hnewer := (verdict_iff_of_inReach source near hheard).1.1 hv m hm
      exact Nat.lt_of_le_of_lt (le_last_of_increasing hpast hm i hi) hnewer
    · rw [List.append_nil]
      exact hpast

/-- Where every packet heard is 1 to 236 places ahead of the one heard before it, all are accepted. -/
theorem acceptedIndices_of_advancing (source : ∀ y ∈ arrivals, y.IsFrom u c)
    (advancing : (heardIndices u arrivals).IsChain fun i j => i < j ∧ j ≤ i + 236) :
    (Arbiter.start u timeout start).acceptedIndices arrivals = heardIndices u arrivals := by
  induction arrivals using List.reverseRecOn with
  | nil => rfl
  | append_singleton past x ih =>
    have hsplit : heardIndices u (past ++ [x]) = heardIndices u past ++ heardIndices u [x] := by
      simp [heardIndices]
    rw [hsplit] at advancing
    obtain ⟨hchain, -, hlink⟩ := List.isChain_append.1 advancing
    have hpast := ih (fun y hy => source y (List.mem_append_left _ hy)) hchain
    rw [Arbiter.acceptedIndices_concat, hpast, hsplit]
    congr 1
    cases hheard : (x.step.heardOn u).isSome with
    | false =>
      have hx : heardIndices u [x] = [] := by simp [heardIndices, hheard]
      rw [hx, if_neg]
      intro hv
      rw [isSome_heardOn_of_accepts hv] at hheard
      cases hheard
    | true =>
      have hx : heardIndices u [x] = [x.index] := by simp [heardIndices, hheard]
      rw [hx, (verdict_after_iff source hheard).1.2 ?_, if_pos rfl]
      intro m hm
      rw [Arbiter.lastIndex?, hpast] at hm
      obtain ⟨hlt, hle⟩ := hlink m hm x.index (by simp [hx])
      have hiff := isStale_ofNat_iff_of_near (Nat.le_trans (Nat.le_of_lt hlt) (Nat.le_add_right _ _))
        hle
      exact Bool.eq_false_iff.2 fun hs => absurd (hiff.1 hs) (Nat.not_le.2 hlt)

end Run

/-- On a universe that hears one source alone, whatever is lost, repeated or out of order, a packet
that comes at most 19 places behind the one accepted last and at most 236 ahead is accepted if it is
newer and refused for its number if it is not, and the first one is accepted. So the places accepted
only go up, however often the count goes round, and a source whose packets come one after the other,
with at most 235 of them lost in a row, has all of them accepted. -/
theorem accepted_iff_newer {u : UniverseId} {c : Cid} {timeout start : Nat}
    {arrivals : List Arrival} (source : ∀ x ∈ arrivals, x.IsFrom u c) :
    let fresh := Arbiter.start u timeout start
    (InReach u fresh arrivals →
      (∀ past x later, arrivals = past ++ x :: later → (x.step.heardOn u).isSome →
        let verdict := (fresh.after (stepsOf past)).verdict x.step
        (verdict.accepts = true ↔ ∀ m, fresh.lastIndex? past = some m → m < x.index) ∧
        (verdict = .stale ↔ ∃ m, fresh.lastIndex? past = some m ∧ x.index ≤ m)) ∧
      (fresh.acceptedIndices arrivals).Pairwise (· < ·)) ∧
    ((heardIndices u arrivals).IsChain (fun i j => i < j ∧ j ≤ i + 236) →
      fresh.acceptedIndices arrivals = heardIndices u arrivals) := by
  intro fresh
  refine ⟨?_, acceptedIndices_of_advancing source⟩
  intro near
  refine ⟨?_, acceptedIndices_increasing source near⟩
  rintro past x later rfl hheard
  exact verdict_iff_of_inReach source near hheard

/-- The count goes round between the first packet and the third, and 235 packets are lost before the
fourth; the second and the last come late. Without the late ones all are accepted. -/
theorem accepted_iff_newer_past_256 :
    let sent (index time : Nat) : Arrival :=
      ⟨index, some { universeId := 1, sequenceNumber := UInt8.ofNat index, slots := [1] }, time⟩
    let arrivals := [sent 250 0, sent 240 1, sent 260 2, sent 496 3, ⟨0, none, 4⟩, sent 477 5]
    let inTime := [sent 250 0, sent 260 2, sent 496 3]
    let fresh := Arbiter.start 1 2500 0
    (∀ x ∈ arrivals, x.IsFrom 1 Cid.zero) ∧ InReach 1 fresh arrivals ∧
      (fresh.acceptedIndices arrivals).Pairwise (· < ·) ∧
      fresh.acceptedIndices arrivals = [250, 260, 496] ∧
      fresh.acceptedIndices inTime = heardIndices 1 inTime := by
  intro sent arrivals inTime fresh
  have hsent : ∀ index time, (sent index time).IsFrom 1 Cid.zero := by
    intro index time p hp
    obtain rfl := Option.some.inj hp
    exact ⟨rfl, rfl⟩
  have hsilent : Arrival.IsFrom 1 Cid.zero ⟨0, none, 4⟩ := by
    intro p hp
    cases hp
  have source : ∀ x ∈ arrivals, x.IsFrom 1 Cid.zero := by
    simp only [arrivals, List.forall_mem_cons, List.not_mem_nil, false_implies, implies_true,
      and_true]
    exact ⟨hsent _ _, hsent _ _, hsent _ _, hsent _ _, hsilent, hsent _ _⟩
  have near : InReach 1 fresh arrivals := by
    have h0 : InReach 1 fresh [] := fun past x later h => by simp at h
    have h1 := h0.concat (x := sent 250 0) (by decide +kernel)
    have h2 := h1.concat (x := sent 240 1) (by decide +kernel)
    have h3 := h2.concat (x := sent 260 2) (by decide +kernel)
    have h4 := h3.concat (x := sent 496 3) (by decide +kernel)
    have h5 := h4.concat (x := ⟨0, none, 4⟩) (by decide +kernel)
    exact h5.concat (x := sent 477 5) (by decide +kernel)
  have onTime : ∀ x ∈ inTime, x.IsFrom 1 Cid.zero := by
    simp only [inTime, List.forall_mem_cons, List.not_mem_nil, false_implies, implies_true,
      and_true]
    exact ⟨hsent _ _, hsent _ _, hsent _ _⟩
  exact ⟨source, near, ((accepted_iff_newer source).1 near).2, by decide +kernel,
    (accepted_iff_newer onTime).2 (by decide +kernel)⟩

end StreamingAcn.Arbitration
