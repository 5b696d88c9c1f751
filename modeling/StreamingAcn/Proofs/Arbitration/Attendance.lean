/-
StreamingAcn.Proofs.Arbitration.Attendance — the table lists the live sources and no others.

A source that falls silent is not struck off when its timeout is over. It goes with the next packet
that another source sends, and its own packets never strike it off. Still, whenever a packet has
just been heard, the table is what the history says it should be: it lists a source if and only if
the source was last heard at most the timeout ago, with the time of that packet. Steps that bring
the universe nothing leave the table alone, so this is true until the next packet comes.

Definition: `ListsLive`, what a table lists, told from the sightings.

Main statement: `lists_live_sources`.
-/
import StreamingAcn.Proofs.Arbitration.Sources

namespace StreamingAcn.Arbitration

open Delivery (Step)

/-- A table lists the sources that were last heard at most `timeout` before `now`, each of them once
and with the time of its last packet. -/
structure ListsLive (timeout now : Nat) (seen : List Sighting) (t : SourceTable) : Prop where
  mem_keys_iff : ∀ c, c ∈ t.keys ↔ ∃ x, lastSighting? c seen = some x ∧ now - x.time ≤ timeout
  heardAt_eq : ∀ c s, t.find? c = some s → ∃ x, lastSighting? c seen = some x ∧ s.heardAt = x.time
  keys_nodup : t.keys.Nodup
  kept : ∀ x ∈ seen, now - x.time ≤ timeout → x.cid ∈ t.keys
  struck : ∀ c, (∀ x ∈ seen, x.cid = c → timeout < now - x.time) → c ∉ t.keys

/-! ## Last sightings -/

theorem mem_of_lastSighting? {c : Cid} {seen : List Sighting} {x : Sighting}
    (h : lastSighting? c seen = some x) : x ∈ seen ∧ x.cid = c := by
  have hm := List.mem_of_getLast? h
  rw [List.mem_filter, decide_eq_true_eq] at hm
  exact hm

/-- A source that was heard has a last sighting, and none of its sightings is later. -/
theorem exists_lastSighting? {seen : List Sighting} {x : Sighting}
    (ordered : seen.Pairwise (fun a b => a.time ≤ b.time)) (hx : x ∈ seen) :
    ∃ y, lastSighting? x.cid seen = some y ∧ x.time ≤ y.time := by
  have hm : x ∈ seen.filter (·.cid = x.cid) := List.mem_filter.2 ⟨hx, by simp⟩
  obtain ⟨y, hy⟩ := Option.isSome_iff_exists.1 (List.getLast?_isSome.2 (List.ne_nil_of_mem hm))
  obtain ⟨front, hfront⟩ := List.getLast?_eq_some_iff.1 hy
  refine ⟨y, hy, ?_⟩
  have hsorted := ordered.filter (·.cid = x.cid)
  rw [hfront] at hm hsorted
  rcases List.mem_append.1 hm with hm | hm
  · exact (List.pairwise_append.1 hsorted).2.2 x hm y (List.mem_singleton_self y)
  · exact Nat.le_of_eq (congrArg Sighting.time (List.mem_singleton.1 hm))

/-! ## The table after a packet -/

theorem listsLive_hearAll {timeout : Nat} {seen : List Sighting} {x : Sighting}
    (ordered : (seen ++ [x]).Pairwise (fun a b => a.time ≤ b.time)) :
    ListsLive timeout x.time (seen ++ [x]) (SourceTable.hearAll timeout (seen ++ [x])) := by
  have hlisted : ∀ c, c ∈ (SourceTable.hearAll timeout (seen ++ [x])).keys ↔
      IsLive timeout (seen ++ [x]) x.time c := fun c =>
    (Directory.mem_keys_iff _ c).trans (find?_isSome_iff_live ordered c)
  refine ⟨hlisted, ?_, Directory.keys_nodup _, ?_, ?_⟩
  · intro c s hs
    obtain ⟨y, hy, hheard, -⟩ := (tracks_hearAll timeout (seen ++ [x])).known hs
    exact ⟨y, hy, hheard⟩
  · intro y hy hrecent
    obtain ⟨z, hz, hle⟩ := exists_lastSighting? ordered hy
    exact (hlisted y.cid).2 ⟨z, hz, by omega⟩
  · intro c hsilent hc
    obtain ⟨y, hy, hrecent⟩ := (hlisted c).1 hc
    obtain ⟨hmem, hcid⟩ := mem_of_lastSighting? hy
    have := hsilent y hmem hcid
    omega

/-- After its latest packet a table lists the live sources and no others, whether it was fed
packets alone or is that of a universe with steps that bring it nothing in between. -/
theorem lists_live_sources (timeout : Nat) :
    (∀ (seen : List Sighting) (x : Sighting),
      (seen ++ [x]).Pairwise (fun a b => a.time ≤ b.time) →
      ListsLive timeout x.time (seen ++ [x]) (SourceTable.hearAll timeout (seen ++ [x]))) ∧
    ∀ (u : UniverseId) (start : Nat) (steps : List Step) (x : Sighting), InOrder steps →
      (sightings u steps).getLast? = some x →
      ListsLive timeout x.time (sightings u steps)
        ((Arbiter.start u timeout start).after steps).sources := by
  constructor
  · intro seen x ordered
    exact listsLive_hearAll ordered
  · intro u start steps x ordered hlast
    obtain ⟨seen, hseen⟩ := List.getLast?_eq_some_iff.1 hlast
    have hsorted := sightings_ordered (u := u) ordered
    rw [Arbiter.after_sources, hseen]
    rw [hseen] at hsorted
    exact listsLive_hearAll hsorted

/-- A source is still listed when another one is heard exactly the timeout after it, and is struck
off by a packet a nanosecond later, which an idle step does not do. -/
theorem lists_live_sources_boundary :
    let silent : Packet := { universeId := 1 }
    let sender : Packet := { universeId := 1, cid := ⟨List.replicate 16 1, by decide⟩, priority := 50 }
    let steps : List Step := [⟨some silent, 0⟩, ⟨some sender, 2500⟩, ⟨none, 2501⟩]
    let fresh := Arbiter.start 1 2500 0
    silent.cid ∈ (fresh.after steps).sources.keys ∧
      silent.cid ∉ (fresh.after (steps ++ [⟨some sender, 2501⟩])).sources.keys := by
  intro silent sender steps fresh
  obtain ⟨-, hrun⟩ := lists_live_sources 2500
  have hbefore := hrun 1 0 steps ⟨sender.cid, 50, 2500⟩ (by decide) (by decide)
  have hafter := hrun 1 0 (steps ++ [⟨some sender, 2501⟩]) ⟨sender.cid, 50, 2501⟩ (by decide)
    (by decide)
  constructor
  · exact hbefore.kept ⟨silent.cid, 100, 0⟩ (by decide) (by decide)
  · exact hafter.struck silent.cid (by decide)

end StreamingAcn.Arbitration
