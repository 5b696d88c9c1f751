/-
StreamingAcn.Proofs.Arbitration.Sources — the table of sources against what was heard.

The table keeps one standing for each source and forgets sources lazily: a silent source goes only
when a packet of another source comes in. The lists of sightings here keep everything, and the
table is read off them. With times that never go back, a source has a standing after a packet if
and only if it was last heard at most the timeout before that packet.

Definitions:

* `Sighting`: what the table sees of one packet;
* `SourceTable.hearAll`: the table after some sightings;
* `lastSighting?`, `IsLive`: when a source was last heard, and whether that is recent;
* `sightings`: what the table of a universe sees of a run of steps.

Main statements:

* `tracks_hearAll`: the invariant that ties every standing to the last sighting of its source;
* `find?_isSome_iff_live`: who has a standing after a packet;
* `mem_winners_iff`: who wins;
* `after_sources`: the table of an arbiter is that of the sightings of its run.
-/
import StreamingAcn.Proofs.Arbitration.Run

namespace StreamingAcn.Arbitration

/-- What the table of sources sees of one packet. -/
structure Sighting where
  cid : Cid
  priority : UInt8
  time : Nat
  deriving DecidableEq

/-- The last sighting of a source. -/
def lastSighting? (c : Cid) (seen : List Sighting) : Option Sighting :=
  (seen.filter (·.cid = c)).getLast?

/-- Whether a source was last heard at most `timeout` before `now`. -/
def IsLive (timeout : Nat) (seen : List Sighting) (now : Nat) (c : Cid) : Prop :=
  ∃ x, lastSighting? c seen = some x ∧ now - x.time ≤ timeout

theorem lastSighting?_concat (c : Cid) (seen : List Sighting) (x : Sighting) :
    lastSighting? c (seen ++ [x]) = if x.cid = c then some x else lastSighting? c seen := by
  by_cases h : x.cid = c <;> simp [lastSighting?, h]

/-! ## The table after some sightings -/

namespace SourceTable

/-- The table after some sightings, oldest first. -/
def hearAll (timeout : Nat) (seen : List Sighting) : SourceTable :=
  seen.foldl (fun t x => t.hear timeout x.cid x.priority x.time) Directory.empty

theorem hearAll_concat (timeout : Nat) (seen : List Sighting) (x : Sighting) :
    hearAll timeout (seen ++ [x]) = (hearAll timeout seen).hear timeout x.cid x.priority x.time := by
  rw [hearAll, List.foldl_append]
  rfl

/-- What a packet does to the table: the sender is heard, and others stay if they are not silent. -/
theorem find?_hear (t : SourceTable) (timeout : Nat) (sender : Cid) (priority : UInt8) (now : Nat)
    (c : Cid) :
    (t.hear timeout sender priority now).find? c =
      if sender = c then
        some (((t.find? sender).map (·.hear timeout priority now)).getD (.first priority now))
      else (t.find? c).filter (fun s => !s.isSilent timeout now) := by
  rw [hear, Directory.find?_insert, Directory.find?_filter]
  by_cases h : sender = c
  · subst h
    rw [if_pos rfl, if_pos rfl]
    cases t.find? sender <;> simp [Option.filter]
  · have h' : ¬ c = sender := fun e => h e.symm
    rw [if_neg h, if_neg h, Directory.find?_filter]
    simp [h']

end SourceTable

namespace Standing

@[simp] theorem heardAt_hear (s : Standing) (timeout : Nat) (priority : UInt8) (now : Nat) :
    (s.hear timeout priority now).heardAt = now := by
  unfold hear
  split <;> rfl

/-- The credit of a source is never below the priority it sent last. -/
theorem le_credit_hear (s : Standing) (timeout : Nat) (priority : UInt8) (now : Nat) :
    priority ≤ (s.hear timeout priority now).credit := by
  unfold hear
  split
  · exact UInt8.le_refl priority
  · next h =>
    have hlt : ¬ s.credit ≤ priority := fun hle => h (.inl hle)
    exact UInt8.le_of_lt (UInt8.not_le.1 hlt)

end Standing

/-! ## The invariant -/

/--
How a table stands to what was heard: every standing is that of the last sighting of its source,
with a credit no lower than its priority, and a source without a standing has been silent for more
than the timeout since its last sighting, if it was ever heard.
-/
structure Tracks (timeout : Nat) (seen : List Sighting) (t : SourceTable) : Prop where
  known : ∀ {c s}, t.find? c = some s →
    ∃ x, lastSighting? c seen = some x ∧ s.heardAt = x.time ∧ x.priority ≤ s.credit
  forgotten : ∀ {c x}, t.find? c = none → lastSighting? c seen = some x →
    ∃ y ∈ seen, x.time + timeout < y.time

theorem tracks_nil (timeout : Nat) : Tracks timeout [] Directory.empty where
  known := fun h => by simp at h
  forgotten := fun _ h => by simp [lastSighting?] at h

/-- The invariant goes through a packet that comes no earlier than those before it. -/
theorem Tracks.hear {timeout : Nat} {seen : List Sighting} {t : SourceTable} {x : Sighting}
    (h : Tracks timeout seen t) :
    Tracks timeout (seen ++ [x]) (t.hear timeout x.cid x.priority x.time) := by
  constructor
  · intro c s hs
    rw [SourceTable.find?_hear] at hs
    rw [lastSighting?_concat]
    by_cases hc : x.cid = c
    · rw [if_pos hc, Option.some.injEq] at hs
      refine ⟨x, if_pos hc, ?_⟩
      cases ht : t.find? x.cid with
      | none =>
        simp only [ht, Option.map_none, Option.getD_none] at hs
        rw [← hs]
        exact ⟨rfl, UInt8.le_refl _⟩
      | some s₀ =>
        simp only [ht, Option.map_some, Option.getD_some] at hs
        rw [← hs]
        exact ⟨Standing.heardAt_hear .., Standing.le_credit_hear ..⟩
    · rw [if_neg hc] at hs ⊢
      exact h.known (Option.filter_eq_some_iff.1 hs).1
  · intro c y hn hy
    rw [SourceTable.find?_hear] at hn
    rw [lastSighting?_concat] at hy
    by_cases hc : x.cid = c
    · rw [if_pos hc] at hn
      exact absurd hn (by simp)
    · rw [if_neg hc] at hn hy
      cases ht : t.find? c with
      | none =>
        obtain ⟨z, hz, hlt⟩ := h.forgotten ht hy
        exact ⟨z, List.mem_append_left _ hz, hlt⟩
      | some s =>
        -- The standing was there and is gone, so the packet found it silent.
        obtain ⟨y', hy', hheard, -⟩ := h.known ht
        rw [hy, Option.some.injEq] at hy'
        have hsilent : s.isSilent timeout x.time = true := by
          simpa [ht, Option.filter] using hn
        rw [Standing.isSilent, lapsed_iff, hheard, ← hy'] at hsilent
        exact ⟨x, List.mem_append_right _ (List.mem_singleton_self x), hsilent⟩

/-- The table after any sightings satisfies the invariant. -/
theorem tracks_hearAll (timeout : Nat) (seen : List Sighting) :
    Tracks timeout seen (SourceTable.hearAll timeout seen) := by
  induction seen using List.reverseRecOn with
  | nil => exact tracks_nil timeout
  | append_singleton seen x ih =>
    rw [SourceTable.hearAll_concat]
    exact ih.hear

/-! ## Who has a standing after a packet -/

/-- No sighting comes after `now`. -/
theorem time_le_of_ordered {seen : List Sighting} {x : Sighting}
    (ordered : (seen ++ [x]).Pairwise (fun a b => a.time ≤ b.time)) :
    ∀ y ∈ seen ++ [x], y.time ≤ x.time := by
  intro y hy
  rcases List.mem_append.1 hy with hy | hy
  · exact (List.pairwise_append.1 ordered).2.2 y hy x (List.mem_singleton_self x)
  · exact Nat.le_of_eq (congrArg Sighting.time (List.mem_singleton.1 hy))

/-- After a packet a source has a standing if and only if it is live. -/
theorem find?_isSome_iff_live {timeout : Nat} {seen : List Sighting} {x : Sighting}
    (ordered : (seen ++ [x]).Pairwise (fun a b => a.time ≤ b.time)) (c : Cid) :
    ((SourceTable.hearAll timeout (seen ++ [x])).find? c).isSome ↔
      IsLive timeout (seen ++ [x]) x.time c := by
  have tracks := tracks_hearAll timeout (seen ++ [x])
  constructor
  · intro hsome
    obtain ⟨s, hs⟩ := Option.isSome_iff_exists.1 hsome
    obtain ⟨y, hy, hheard, -⟩ := tracks.known hs
    refine ⟨y, hy, ?_⟩
    rw [SourceTable.hearAll_concat, SourceTable.find?_hear] at hs
    by_cases hc : x.cid = c
    · rw [lastSighting?_concat, if_pos hc, Option.some.injEq] at hy
      rw [← hy]
      omega
    · rw [if_neg hc] at hs
      have hkept := (Option.filter_eq_some_iff.1 hs).2
      have hsilent : ¬ s.heardAt + timeout < x.time := by
        rw [← lapsed_iff]
        simpa [Standing.isSilent] using hkept
      omega
  · rintro ⟨y, hy, hlive⟩
    cases ht : (SourceTable.hearAll timeout (seen ++ [x])).find? c with
    | some s => rfl
    | none =>
      obtain ⟨z, hz, hlt⟩ := tracks.forgotten ht hy
      have := time_le_of_ordered ordered z hz
      omega

/-! ## The winners -/

namespace SourceTable

theorem foldl_max_le_iff (l : List Standing) (b n : UInt8) :
    l.foldl (fun best s => max best s.credit) b ≤ n ↔ b ≤ n ∧ ∀ s ∈ l, s.credit ≤ n := by
  induction l generalizing b with
  | nil => simp
  | cons s rest ih =>
    have hmax : max b s.credit ≤ n ↔ b ≤ n ∧ s.credit ≤ n := by
      show (if b ≤ s.credit then s.credit else b) ≤ n ↔ _
      split
      · next h => exact ⟨fun hn => ⟨UInt8.le_trans h hn, hn⟩, fun hn => hn.2⟩
      · next h =>
        have hle : s.credit ≤ b := UInt8.le_of_lt (UInt8.not_le.1 h)
        exact ⟨fun hn => ⟨hn, UInt8.le_trans hle hn⟩, fun hn => hn.1⟩
    rw [List.foldl_cons, ih, hmax, List.forall_mem_cons, and_assoc]

theorem mem_values_iff (t : SourceTable) (s : Standing) :
    s ∈ t.values ↔ ∃ c, t.find? c = some s := by
  simp only [Directory.values, List.mem_map]
  constructor
  · rintro ⟨⟨c, s'⟩, hm, rfl⟩
    exact ⟨c, (t.mem_entries_iff c s').1 hm⟩
  · rintro ⟨c, hc⟩
    exact ⟨(c, s), (t.mem_entries_iff c s).2 hc, rfl⟩

theorem highestCredit_le_iff (t : SourceTable) (n : UInt8) :
    t.highestCredit ≤ n ↔ ∀ c s, t.find? c = some s → s.credit ≤ n := by
  rw [highestCredit, foldl_max_le_iff]
  constructor
  · intro h c s hs
    exact h.2 s ((t.mem_values_iff s).2 ⟨c, hs⟩)
  · intro h
    refine ⟨UInt8.zero_le, fun s hs => ?_⟩
    obtain ⟨c, hc⟩ := (t.mem_values_iff s).1 hs
    exact h c s hc

/-- A source wins if no source has a higher credit. -/
theorem mem_winners_iff (t : SourceTable) (c : Cid) :
    c ∈ t.winners ↔
      ∃ s, t.find? c = some s ∧ ∀ d s', t.find? d = some s' → s'.credit ≤ s.credit := by
  have hmem : c ∈ t.winners ↔ ∃ s, t.find? c = some s ∧ s.credit = t.highestCredit := by
    simp only [winners, Directory.keys, List.mem_map]
    constructor
    · rintro ⟨⟨d, s⟩, hm, rfl⟩
      rw [Directory.mem_entries_iff, Directory.find?_filter, Option.filter_eq_some_iff] at hm
      exact ⟨s, hm.1, by simpa using hm.2⟩
    · rintro ⟨s, hs, hc⟩
      refine ⟨(c, s), ?_, rfl⟩
      rw [Directory.mem_entries_iff, Directory.find?_filter, Option.filter_eq_some_iff]
      exact ⟨hs, by simpa using hc⟩
  rw [hmem]
  constructor
  · rintro ⟨s, hs, hc⟩
    refine ⟨s, hs, ?_⟩
    rw [← highestCredit_le_iff, hc]
    exact UInt8.le_refl _
  · rintro ⟨s, hs, hmax⟩
    have hle := (t.highestCredit_le_iff t.highestCredit).1 (UInt8.le_refl _) c s hs
    exact ⟨s, hs, UInt8.le_antisymm hle ((t.highestCredit_le_iff s.credit).2 hmax)⟩

theorem foldl_max_attained (l : List Standing) (b : UInt8) :
    l.foldl (fun best s => max best s.credit) b = b ∨
      ∃ s ∈ l, s.credit = l.foldl (fun best s => max best s.credit) b := by
  induction l generalizing b with
  | nil => exact .inl rfl
  | cons s rest ih =>
    rw [List.foldl_cons]
    rcases ih (max b s.credit) with h | ⟨s', hs', he⟩
    · have hmax : max b s.credit = s.credit ∨ max b s.credit = b := by
        show (if b ≤ s.credit then s.credit else b) = s.credit ∨
          (if b ≤ s.credit then s.credit else b) = b
        split
        · exact .inl rfl
        · exact .inr rfl
      rcases hmax with hm | hm
      · exact .inr ⟨s, List.mem_cons_self, by rw [h, hm]⟩
      · exact .inl (by rw [h, hm])
    · exact .inr ⟨s', List.mem_cons_of_mem _ hs', he⟩

/-- A table with a standing in it has a winner. -/
theorem winners_ne_nil {t : SourceTable} {c : Cid} {s : Standing} (h : t.find? c = some s) :
    t.winners ≠ [] := by
  suffices hw : ∃ d, d ∈ t.winners by
    obtain ⟨d, hd⟩ := hw
    exact List.ne_nil_of_mem hd
  have hle : ∀ d s', t.find? d = some s' → s'.credit ≤ t.highestCredit :=
    (t.highestCredit_le_iff _).1 (UInt8.le_refl _)
  rcases foldl_max_attained t.values 0 with h0 | ⟨s', hs', he⟩
  · -- Nothing is above credit 0, so the standing at hand is as good as any.
    refine ⟨c, (t.mem_winners_iff c).2 ⟨s, h, fun d s' hd => ?_⟩⟩
    have := hle d s' hd
    rw [highestCredit, h0] at this
    exact UInt8.le_trans this UInt8.zero_le
  · obtain ⟨d, hd⟩ := (t.mem_values_iff s').1 hs'
    exact ⟨d, (t.mem_winners_iff d).2 ⟨s', hd, fun e s'' h' => he ▸ hle e s'' h'⟩⟩

theorem winners_nodup (t : SourceTable) : t.winners.Nodup := Directory.keys_nodup _

end SourceTable

/-! ## The sightings of a run -/

open Delivery (Step)

/-- What the table of a universe sees of some steps: the packets that the universe merges. -/
def sightings (u : UniverseId) (steps : List Step) : List Sighting :=
  steps.filterMap fun s => (s.heardOn u).map fun p => ⟨p.cid, p.priority, s.time⟩

theorem sightings_append (u : UniverseId) (xs ys : List Step) :
    sightings u (xs ++ ys) = sightings u xs ++ sightings u ys := List.filterMap_append

theorem sightings_heard {u : UniverseId} {s : Step} {p : Packet} (h : s.heardOn u = some p) :
    sightings u [s] = [⟨p.cid, p.priority, s.time⟩] := by
  simp [sightings, h]

theorem sightings_silent {u : UniverseId} {s : Step} (h : s.heardOn u = none) :
    sightings u [s] = [] := by
  simp [sightings, h]

/-- Steps in order of time give sightings in order of time. -/
theorem sightings_ordered {u : UniverseId} {steps : List Step} (h : InOrder steps) :
    (sightings u steps).Pairwise (fun a b => a.time ≤ b.time) := by
  refine List.Pairwise.filterMap _ ?_ h
  intro a b hab x hx y hy
  obtain ⟨p, -, rfl⟩ := Option.map_eq_some_iff.1 hx
  obtain ⟨q, -, rfl⟩ := Option.map_eq_some_iff.1 hy
  exact hab

/-- The table of an arbiter is that of what it heard, whatever came of the packets. -/
theorem Arbiter.after_sources (u : UniverseId) (timeout start : Nat) (steps : List Step) :
    ((Arbiter.start u timeout start).after steps).sources =
      SourceTable.hearAll timeout (sightings u steps) := by
  induction steps using List.reverseRecOn with
  | nil => rfl
  | append_singleton past s ih =>
    rw [Arbiter.after_append, Arbiter.after_cons, Arbiter.after_nil, sightings_append]
    have hu : ((Arbiter.start u timeout start).after past).universeId = u :=
      Arbiter.after_universeId _ past
    have ht : ((Arbiter.start u timeout start).after past).timeout = timeout :=
      Arbiter.after_timeout _ past
    cases hs : s.heardOn u with
    | none =>
      rw [Arbiter.next_of_silent (hu.symm ▸ hs), sightings_silent hs, List.append_nil, ih]
    | some p =>
      rw [Arbiter.next_of_heard (hu.symm ▸ hs), Arbiter.judge_sources, sightings_heard hs,
        SourceTable.hearAll_concat, ← ih]
      show SourceTable.hear _ ((Arbiter.start u timeout start).after past).timeout _ _ _ = _
      rw [ht]

end StreamingAcn.Arbitration
