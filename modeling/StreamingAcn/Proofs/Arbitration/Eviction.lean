/-
StreamingAcn.Proofs.Arbitration.Eviction — a source that fell silent is as good as unknown.

A packet strikes off the sources that have been silent for more than the timeout, but never its own
sender. A sender that comes back after a long silence keeps its old standing and has the packet
weighed against the old credit, where a source that another packet struck off first is entered
anew. It could matter which of the two happens. It does not: no credit is given later than its
source is heard, so the credit of a silent sender has run out and any priority takes its place.

From this it follows that packets which come at the same time, from different sources, can be
heard in either order, and that every packet might as well strike off its own sender.

Definitions:

* `Standing.renewed`: the standing that a packet gives its sender, known or not;
* `SourceTable.Dated`: no credit is given later than its source is heard, and none of it after now;
* `SourceTable.Reached`: the tables that packets in order of time leave behind;
* `SourceTable.awake`: the table without the silent sources, be they senders or not.

Main statements: `reached_after`, `simultaneous_packets_commute`, `silent_sender_starts_afresh`.
-/
import StreamingAcn.Proofs.Arbitration.Credit

namespace StreamingAcn.Arbitration

open Delivery (Step)

variable {timeout now last : Nat} {a b c sender : Cid} {p q priority : UInt8} {s : Standing}
  {t : SourceTable}

/-! ## One source -/

namespace Standing

/-- The standing that a packet gives its sender, who may have had one before. -/
def renewed (known : Option Standing) (timeout : Nat) (priority : UInt8) (now : Nat) : Standing :=
  (known.map (·.hear timeout priority now)).getD (.first priority now)

/-- A standing if it is not that of a silent source. -/
def unlessSilent (known : Option Standing) (timeout now : Nat) : Option Standing :=
  known.filter (fun s => !s.isSilent timeout now)

/-- The credit of a silent source has run out, so that any priority replaces it. -/
theorem hear_of_silent (hdate : s.creditedAt ≤ s.heardAt)
    (hsilent : s.isSilent timeout now = true) :
    s.hear timeout priority now = .first priority now := by
  rcases s.hear_cases timeout priority now with ⟨-, hfirst⟩ | ⟨-, hheld, -⟩
  · exact hfirst
  · -- A credit that is still held was given within the timeout, and the source was heard since.
    rw [isSilent, lapsed_iff] at hsilent
    omega

/-- A source that is heard is not silent. -/
theorem isSilent_renewed (known : Option Standing) (timeout : Nat) (priority : UInt8) (now : Nat) :
    (renewed known timeout priority now).isSilent timeout now = false := by
  cases known <;> simp [renewed, isSilent, lapsed, first]

@[simp] theorem unlessSilent_some_renewed (known : Option Standing) (timeout : Nat)
    (priority : UInt8) (now : Nat) :
    unlessSilent (some (renewed known timeout priority now)) timeout now =
      some (renewed known timeout priority now) := by
  simp [unlessSilent, Option.filter, isSilent_renewed]

@[simp] theorem unlessSilent_unlessSilent (known : Option Standing) (timeout now : Nat) :
    unlessSilent (unlessSilent known timeout now) timeout now = unlessSilent known timeout now := by
  simp [unlessSilent, Option.filter_filter]

/-- It makes no difference to a sender whether its standing was struck off for its silence. -/
theorem renewed_unlessSilent {known : Option Standing}
    (hdate : ∀ s, known = some s → s.creditedAt ≤ s.heardAt) :
    renewed (unlessSilent known timeout now) timeout priority now =
      renewed known timeout priority now := by
  cases known with
  | none => rfl
  | some s =>
    cases hsilent : s.isSilent timeout now with
    | false => simp [unlessSilent, Option.filter, hsilent]
    | true =>
      have hgone : unlessSilent (some s) timeout now = none := by
        simp [unlessSilent, Option.filter, hsilent]
      rw [hgone]
      exact (hear_of_silent (hdate s rfl) hsilent).symm

end Standing

namespace SourceTable

open Standing (renewed unlessSilent)

theorem find?_hear_eq_ite (t : SourceTable) (timeout : Nat) (sender : Cid) (priority : UInt8)
    (now : Nat) (c : Cid) :
    (t.hear timeout sender priority now).find? c =
      if sender = c then some (renewed (t.find? sender) timeout priority now)
      else unlessSilent (t.find? c) timeout now :=
  t.find?_hear timeout sender priority now c

/-! ## Dates -/

/-- No credit in the table is given later than its source is heard, and no source is heard after
`now`. -/
def Dated (t : SourceTable) (now : Nat) : Prop :=
  ∀ c s, t.find? c = some s → s.creditedAt ≤ s.heardAt ∧ s.heardAt ≤ now

/-- The tables that packets in order of time leave behind, with the time of the latest of them.
Each packet comes with a timeout of its own. -/
inductive Reached : SourceTable → Nat → Prop
  | nothing (start : Nat) : Reached Directory.empty start
  | heard {t : SourceTable} {last now : Nat} (timeout : Nat) (sender : Cid) (priority : UInt8) :
      Reached t last → last ≤ now → Reached (t.hear timeout sender priority now) now

theorem Dated.mono (h : t.Dated last) (hle : last ≤ now) : t.Dated now := by
  intro c s hs
  obtain ⟨hdate, hlast⟩ := h c s hs
  exact ⟨hdate, Nat.le_trans hlast hle⟩

/-- A packet keeps the dates in order. -/
theorem Dated.hear (h : t.Dated now) : (t.hear timeout sender priority now).Dated now := by
  intro c s hs
  rw [find?_hear_eq_ite] at hs
  by_cases hc : sender = c
  · rw [if_pos hc, Option.some.injEq] at hs
    subst hs
    cases hknown : t.find? sender with
    | none => exact ⟨Nat.le_refl now, Nat.le_refl now⟩
    | some s₀ =>
      obtain ⟨hdate, hlast⟩ := h sender s₀ hknown
      show (s₀.hear timeout priority now).creditedAt ≤ (s₀.hear timeout priority now).heardAt ∧
        (s₀.hear timeout priority now).heardAt ≤ now
      rw [Standing.heardAt_hear]
      rcases s₀.hear_cases timeout priority now with ⟨-, hhear⟩ | ⟨-, -, hhear⟩
      · rw [hhear]
        exact ⟨Nat.le_refl now, Nat.le_refl now⟩
      · rw [hhear]
        exact ⟨Nat.le_trans hdate hlast, Nat.le_refl now⟩
  · rw [if_neg hc] at hs
    exact h c s (Option.filter_eq_some_iff.1 hs).1

/-- Every table that packets in order of time leave behind has its dates in order. -/
theorem Reached.dated (h : t.Reached last) : t.Dated last := by
  induction h with
  | nothing start => intro c s hs; cases hs
  | heard timeout sender priority _ hle ih => exact (ih.mono hle).hear

/-- Sightings in order of time, all with one timeout, lead to such a table. -/
theorem reached_hearAll {seen : List Sighting} {x : Sighting}
    (ordered : (seen ++ [x]).Pairwise (fun a b => a.time ≤ b.time)) :
    (hearAll timeout (seen ++ [x])).Reached x.time := by
  induction seen using List.reverseRecOn generalizing x with
  | nil => exact .heard timeout x.cid x.priority (.nothing x.time) (Nat.le_refl _)
  | append_singleton seen y ih =>
    rw [hearAll_concat]
    refine .heard timeout x.cid x.priority (ih (List.pairwise_append.1 ordered).1) ?_
    exact time_le_of_ordered ordered y (by simp)

/-- The table of an arbiter whose steps come in order of time is such a table. -/
theorem reached_after (u : UniverseId) (timeout start : Nat) {steps : List Step}
    (ordered : InOrder steps) (hnow : ∀ s ∈ steps, s.time ≤ now) :
    ∃ last ≤ now, Reached ((Arbiter.start u timeout start).after steps).sources last := by
  rw [Arbiter.after_sources]
  cases hlast : (sightings u steps).getLast? with
  | none =>
    rw [List.getLast?_eq_none_iff.1 hlast]
    exact ⟨0, Nat.zero_le now, .nothing 0⟩
  | some x =>
    obtain ⟨s, hs, hx⟩ := List.mem_filterMap.1 (List.mem_of_getLast? hlast)
    obtain ⟨p, -, rfl⟩ := Option.map_eq_some_iff.1 hx
    obtain ⟨seen, hseen⟩ := List.getLast?_eq_some_iff.1 hlast
    have hsorted := sightings_ordered (u := u) ordered
    rw [hseen] at hsorted ⊢
    exact ⟨s.time, hnow s hs, reached_hearAll hsorted⟩

/-! ## Two packets at one time -/

/-- The table after two packets that come at one time from different sources: each of the senders
has the standing that its packet gives it, and of the others those are left that are not silent. -/
theorem find?_hear_hear (h : t.Dated now) (hab : a ≠ b) (c : Cid) :
    ((t.hear timeout a p now).hear timeout b q now).find? c =
      if b = c then some (renewed (t.find? b) timeout q now)
      else if a = c then some (renewed (t.find? a) timeout p now)
      else unlessSilent (t.find? c) timeout now := by
  -- Whether the first packet struck off the second sender makes no difference to it.
  have hb : renewed ((t.hear timeout a p now).find? b) timeout q now =
      renewed (t.find? b) timeout q now := by
    rw [find?_hear_eq_ite, if_neg hab]
    exact Standing.renewed_unlessSilent fun s hs => (h b s hs).1
  rw [find?_hear_eq_ite, hb, find?_hear_eq_ite]
  by_cases hbc : b = c
  · rw [if_pos hbc, if_pos hbc]
  · rw [if_neg hbc, if_neg hbc]
    split <;> simp

/-- Packets that come at the same time from different sources can be heard in either order: the
tables are the same, and so are the winners, whoever was silent before. The dates have to be in
order for that, as they are in every table that packets in order of time leave behind. -/
theorem simultaneous_packets_commute (timeout now : Nat) {a b : Cid} (hab : a ≠ b) (p q : UInt8) :
    (∀ (t : SourceTable) (last : Nat), t.Reached last → last ≤ now → t.Dated now) ∧
    ∀ t : SourceTable, t.Dated now →
      (t.hear timeout a p now).hear timeout b q now =
        (t.hear timeout b q now).hear timeout a p now ∧
      ((t.hear timeout a p now).hear timeout b q now).winners =
        ((t.hear timeout b q now).hear timeout a p now).winners := by
  refine ⟨fun t last hreached hle => hreached.dated.mono hle, ?_⟩
  intro t hdated
  have hsame : (t.hear timeout a p now).hear timeout b q now =
      (t.hear timeout b q now).hear timeout a p now := by
    refine Directory.ext_find? fun c => ?_
    rw [find?_hear_hear hdated hab, find?_hear_hear hdated hab.symm]
    by_cases hac : a = c
    · have hbc : b ≠ c := fun hbc => hab (hac.trans hbc.symm)
      rw [if_pos hac, if_neg hbc, if_pos hac]
    · rw [if_neg hac, if_neg hac]
  exact ⟨hsame, congrArg winners hsame⟩

/-- Two sources that were heard at 0 and 10, with credits 200 and 150, are both silent at 3000 and
send again with lower priorities. -/
theorem simultaneous_packets_commute_after_silence :
    let other : Cid := ⟨List.replicate 16 1, by decide⟩
    let t := (hear Directory.empty 2500 Cid.zero 200 0).hear 2500 other 150 10
    (t.hear 2500 Cid.zero 90 3000).hear 2500 other 100 3000 =
        (t.hear 2500 other 100 3000).hear 2500 Cid.zero 90 3000 ∧
      ((t.hear 2500 other 100 3000).hear 2500 Cid.zero 90 3000).winners = [other] := by
  intro other t
  have hreached : t.Reached 10 :=
    .heard 2500 other 150 (.heard 2500 Cid.zero 200 (.nothing 0) (Nat.le_refl 0)) (by decide)
  have hne : Cid.zero ≠ other := by decide
  obtain ⟨hdates, hcommute⟩ := simultaneous_packets_commute 2500 3000 hne 90 100
  obtain ⟨hsame, hwinners⟩ := hcommute t (hdates t 10 hreached (by decide))
  exact ⟨hsame, hwinners.symm.trans (by decide +kernel)⟩

/-! ## Silent senders -/

/-- The table without the silent sources, whoever sends. -/
def awake (t : SourceTable) (timeout now : Nat) : SourceTable :=
  t.filter (fun _ s => !s.isSilent timeout now)

theorem find?_awake (t : SourceTable) (timeout now : Nat) (c : Cid) :
    (t.awake timeout now).find? c = unlessSilent (t.find? c) timeout now :=
  Directory.find?_filter ..

/-- A packet might as well strike off every silent source, its own sender with the others. -/
theorem hear_awake (h : t.Dated now) :
    (t.awake timeout now).hear timeout sender priority now =
      t.hear timeout sender priority now := by
  refine Directory.ext_find? fun c => ?_
  rw [find?_hear_eq_ite, find?_hear_eq_ite, find?_awake, find?_awake,
    Standing.renewed_unlessSilent fun s hs => (h sender s hs).1, Standing.unlessSilent_unlessSilent]

/-- The packet of a source that has no standing enters it among those that are not silent. -/
theorem hear_of_unknown (h : t.find? sender = none) :
    t.hear timeout sender priority now =
      (t.awake timeout now).insert sender (.first priority now) := by
  refine Directory.ext_find? fun c => ?_
  rw [find?_hear_eq_ite, h, Directory.find?_insert, find?_awake]
  rfl

/-- A silent sender might as well have no standing. -/
theorem hear_of_silent (h : t.Dated now) (hs : t.find? sender = some s)
    (hsilent : s.isSilent timeout now = true) :
    t.hear timeout sender priority now =
      (t.awake timeout now).insert sender (.first priority now) := by
  have hgone : (t.awake timeout now).find? sender = none := by
    rw [find?_awake, hs]
    simp [unlessSilent, Option.filter, hsilent]
  have htwice : (t.awake timeout now).awake timeout now = t.awake timeout now := by
    refine Directory.ext_find? fun c => ?_
    rw [find?_awake, find?_awake, Standing.unlessSilent_unlessSilent]
  rw [← hear_awake h, hear_of_unknown hgone, htwice]

theorem awake_erase (hs : t.find? sender = some s) (hsilent : s.isSilent timeout now = true) :
    awake (t.erase sender) timeout now = t.awake timeout now := by
  refine Directory.ext_find? fun c => ?_
  rw [find?_awake, find?_awake, Directory.find?_erase]
  by_cases hc : sender = c
  · rw [if_pos hc, ← hc, hs]
    simp [unlessSilent, Option.filter, hsilent]
  · rw [if_neg hc]

/-- A source that comes back after more than the timeout is a new one. Its packet makes the table
what it makes of the table without the source: all silent sources go, and the sender is entered
with the time and the priority of its packet, whatever it was credited with. Every packet, of a
silent source or not, does the same whether its sender is kept from being struck off or not. -/
theorem silent_sender_starts_afresh {t : SourceTable} {last now : Nat} (reached : t.Reached last)
    (later : last ≤ now) (timeout : Nat) (c : Cid) (priority : UInt8) :
    (∀ s, t.find? c = some s → s.isSilent timeout now = true →
      t.hear timeout c priority now = hear (t.erase c) timeout c priority now ∧
      t.hear timeout c priority now =
        (t.awake timeout now).insert c ⟨now, now, priority⟩ ∧
      (t.hear timeout c priority now).find? c = some ⟨now, now, priority⟩) ∧
    t.hear timeout c priority now = (t.awake timeout now).hear timeout c priority now := by
  have hdated : t.Dated now := reached.dated.mono later
  refine ⟨fun s hs hsilent => ?_, (hear_awake hdated).symm⟩
  have hafresh : t.hear timeout c priority now =
      (t.awake timeout now).insert c (.first priority now) := hear_of_silent hdated hs hsilent
  have herased : (t.erase c).find? c = none := by rw [Directory.find?_erase, if_pos rfl]
  refine ⟨?_, hafresh, ?_⟩
  · rw [hafresh, hear_of_unknown herased, awake_erase hs hsilent]
  · rw [hafresh, Directory.find?_insert, if_pos rfl]
    rfl

/-- A source that was credited with 200 and sends 100 a nanosecond more than the timeout later. -/
theorem silent_sender_starts_afresh_lower :
    let t := hear Directory.empty 2500 Cid.zero 200 0
    t.hear 2500 Cid.zero 100 2501 = hear (t.erase Cid.zero) 2500 Cid.zero 100 2501 ∧
      (t.hear 2500 Cid.zero 100 2501).find? Cid.zero = some ⟨2501, 2501, 100⟩ := by
  intro t
  have hreached : t.Reached 0 := .heard 2500 Cid.zero 200 (.nothing 0) (Nat.le_refl 0)
  obtain ⟨hsilent, -⟩ := silent_sender_starts_afresh hreached (Nat.zero_le 2501) 2500 Cid.zero 100
  obtain ⟨herased, -, hentry⟩ := hsilent ⟨0, 0, 200⟩ (by decide +kernel) (by decide)
  exact ⟨herased, hentry⟩

/-- With a credit that is given after the source was last heard, the order would matter. -/
example :
    let other : Cid := ⟨List.replicate 16 1, by decide⟩
    let t : SourceTable := Directory.empty.insert Cid.zero ⟨0, 2000, 200⟩
    (t.hear 2500 Cid.zero 100 3000).hear 2500 other 100 3000 ≠
      (t.hear 2500 other 100 3000).hear 2500 Cid.zero 100 3000 := by
  decide +kernel

end SourceTable

end StreamingAcn.Arbitration
