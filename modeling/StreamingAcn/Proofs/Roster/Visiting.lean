/-
StreamingAcn.Proofs.Roster.Visiting — a step is offered to one worker after another.

A roster does not know in which order its workers are visited when a step is dispatched. The packet
of the step goes to the first worker that it is for, and the workers visited after that see that it
is gone. Each universe is visited once, so none of this can be noticed: in whatever order the
workers are visited, all of them are offered what the step means for their universe, and the packet
is left over exactly if no active universe is its own.
-/
import StreamingAcn.Roster
import Mathlib.Data.List.Basic

namespace StreamingAcn

open Delivery (Outlet Step Worker)

theorem Delivery.Outlet.offered_comm (o : Outlet) (w v : Worker) (s t : Step) :
    (o.offered w s).offered v t = (o.offered v t).offered w s := by
  unfold offered
  split <;> split <;> rfl

namespace Roster

/-- The worker of one universe is offered what is left of a step. Its own packet it takes. -/
def offerTo (r : Roster) (u : UniverseId) (packet : Option Packet) (now : Nat) :
    Option Packet × Roster :=
  match r.workers.find? u with
  | none => (packet, r)
  | some w =>
    (packet.filter (fun p => p.universeId ≠ u),
      { r with
        workers := r.workers.map fun k v => if k = u then v.offer (stepFor packet now u) else v
        outlet := r.outlet.offered w (stepFor packet now u) })

/-- The workers of some universes are visited in turn; what is left of the packet, and the roster. -/
def visit (r : Roster) : List UniverseId → Option Packet → Nat → Option Packet × Roster
  | [], packet, _ => (packet, r)
  | u :: rest, packet, now =>
    (r.offerTo u packet now).2.visit rest (r.offerTo u packet now).1 now

variable {r : Roster} {u k : UniverseId} {packet : Option Packet} {now : Nat}

/-- A packet that is gone makes no difference to the universes that it was not for. -/
theorem stepFor_filter (h : k ≠ u) :
    stepFor (packet.filter (fun p => p.universeId ≠ u)) now k = stepFor packet now k := by
  cases packet with
  | none => rfl
  | some p =>
    by_cases hu : p.universeId = u
    · have hk : p.universeId ≠ k := fun hk => h (hk.symm.trans hu)
      simp [stepFor, Option.filter, hu, h.symm]
    · simp [stepFor, Option.filter, hu]

theorem find?_offerTo : (r.offerTo u packet now).2.workers.find? k =
    if k = u then (r.workers.find? k).map (·.offer (stepFor packet now k))
    else r.workers.find? k := by
  unfold offerTo
  split
  · next hn =>
    split
    · next hk => rw [hk, hn, Option.map_none]
    · rfl
  · next w hw =>
    rw [Directory.find?_map]
    by_cases hk : k = u
    · simp only [hk, if_true]
    · simp only [if_neg hk, Option.map_id_fun', id_eq]

/-- What a visit to the worker of a universe does to the outlet. -/
def offeredAt (r : Roster) (packet : Option Packet) (now : Nat) (o : Outlet) (u : UniverseId) :
    Outlet :=
  match r.workers.find? u with
  | none => o
  | some w => o.offered w (stepFor packet now u)

theorem outlet_offerTo :
    (r.offerTo u packet now).2.outlet = r.offeredAt packet now r.outlet u := by
  unfold offerTo offeredAt
  split <;> rfl

theorem settings_offerTo : (r.offerTo u packet now).2.timeout = r.timeout ∧
    (r.offerTo u packet now).2.leaving = r.leaving ∧
    (r.offerTo u packet now).2.isClosed = r.isClosed := by
  unfold offerTo
  split <;> exact ⟨rfl, rfl, rfl⟩

theorem left_offerTo (h : r.isActive u) :
    (r.offerTo u packet now).1 = packet.filter (fun p => p.universeId ≠ u) := by
  unfold offerTo
  split
  · next hn => simp [isActive, Directory.contains, hn] at h
  · rfl

theorem offeredAt_comm (o : Outlet) (u v : UniverseId) :
    r.offeredAt packet now (r.offeredAt packet now o u) v =
      r.offeredAt packet now (r.offeredAt packet now o v) u := by
  unfold offeredAt
  split <;> split <;> first | rfl | exact Outlet.offered_comm ..

theorem isActive_offerTo : (r.offerTo u packet now).2.isActive k = r.isActive k := by
  rw [isActive, Directory.contains, find?_offerTo, isActive, Directory.contains]
  split
  · rw [Option.isSome_map]
  · rfl

/-! ## A dispatch -/

theorem find?_dispatch : (r.dispatch packet now).workers.find? k =
    (r.workers.find? k).map (·.offer (stepFor packet now k)) := by
  rw [dispatch, Directory.find?_map]

theorem find?_dispatch_of_some {w : Worker} (hw : r.workers.find? k = some w)
    (packet : Option Packet) (now : Nat) :
    (r.dispatch packet now).workers.find? k = some (w.offer (stepFor packet now k)) := by
  rw [find?_dispatch, hw, Option.map_some]

theorem isActive_dispatch : (r.dispatch packet now).isActive k = r.isActive k := by
  rw [isActive, Directory.contains, find?_dispatch, Option.isSome_map, isActive,
    Directory.contains]

/-! ## Every order of visits -/

/-- Each visited worker is offered what the step means for its universe, and no other is. -/
theorem find?_visit {order : List UniverseId} (hn : order.Nodup) :
    (r.visit order packet now).2.workers.find? k =
      if k ∈ order then (r.workers.find? k).map (·.offer (stepFor packet now k))
      else r.workers.find? k := by
  induction order generalizing r packet with
  | nil => simp [visit]
  | cons u rest ih =>
    obtain ⟨hu, hn⟩ := List.nodup_cons.1 hn
    rw [visit, ih hn, find?_offerTo]
    by_cases hk : k = u
    · subst hk
      rw [if_neg hu, if_pos rfl, if_pos List.mem_cons_self]
    · rw [if_neg hk]
      by_cases hm : k ∈ rest
      · rw [if_pos hm, if_pos (List.mem_cons_of_mem _ hm)]
        cases hw : r.workers.find? u with
        | none => simp [offerTo, hw]
        | some w => simp only [offerTo, hw, stepFor_filter hk]
      · rw [if_neg hm, if_neg (by simp [hk, hm])]

theorem outlet_visit {order : List UniverseId} (hn : order.Nodup) :
    (r.visit order packet now).2.outlet = order.foldl (r.offeredAt packet now) r.outlet := by
  induction order generalizing r packet with
  | nil => rfl
  | cons u rest ih =>
    obtain ⟨hu, hn⟩ := List.nodup_cons.1 hn
    rw [visit, ih hn, outlet_offerTo, List.foldl_cons]
    refine List.foldl_ext _ _ _ ?_
    intro o k hk
    have hne : k ≠ u := fun h => hu (h ▸ hk)
    rw [offeredAt, find?_offerTo, if_neg hne, offeredAt]
    cases hw : r.workers.find? u with
    | none => simp only [offerTo, hw]
    | some w => simp only [offerTo, hw, stepFor_filter hne]

theorem settings_visit {order : List UniverseId} :
    (r.visit order packet now).2.timeout = r.timeout ∧
      (r.visit order packet now).2.leaving = r.leaving ∧
      (r.visit order packet now).2.isClosed = r.isClosed := by
  induction order generalizing r packet with
  | nil => exact ⟨rfl, rfl, rfl⟩
  | cons u rest ih =>
    obtain ⟨h1, h2, h3⟩ := @settings_offerTo r u packet now
    obtain ⟨i1, i2, i3⟩ := @ih (r.offerTo u packet now).2 (r.offerTo u packet now).1
    exact ⟨i1.trans h1, i2.trans h2, i3.trans h3⟩

/-- What is left of the packet is a packet for none of the visited universes. -/
theorem left_visit {order : List UniverseId} (ha : ∀ u ∈ order, r.isActive u) :
    (r.visit order packet now).1 = packet.filter (fun p => p.universeId ∉ order) := by
  induction order generalizing r packet with
  | nil => cases packet <;> rfl
  | cons u rest ih =>
    have hrest : ∀ k ∈ rest, (r.offerTo u packet now).2.isActive k := by
      intro k hk
      rw [isActive_offerTo]
      exact ha k (List.mem_cons_of_mem _ hk)
    rw [visit, ih hrest, left_offerTo (ha u List.mem_cons_self), Option.filter_filter]
    congr 1
    funext p
    simp [not_or]

theorem active_nodup (r : Roster) : r.active.Nodup := r.workers.keys_nodup

theorem mem_active_iff : u ∈ r.active ↔ r.isActive u := r.workers.mem_keys_iff u

theorem outlet_dispatch :
    (r.dispatch packet now).outlet = r.active.foldl (r.offeredAt packet now) r.outlet := by
  rw [active, Directory.keys, List.foldl_map]
  refine List.foldl_ext _ _ _ ?_
  intro o e he
  have hw : r.workers.find? e.1 = some e.2 := (Directory.mem_entries_iff _ _ _).1 he
  rw [offeredAt, hw]

/-- A dispatch gives every worker its step, in whatever order the workers are visited. -/
theorem visit_eq_dispatch {order : List UniverseId} (h : order.Perm r.active) :
    r.visit order packet now =
      (packet.filter (fun p => !r.isActive p.universeId), r.dispatch packet now) := by
  have hn : order.Nodup := h.nodup_iff.2 r.active_nodup
  have hmem : ∀ u, u ∈ order ↔ r.isActive u := fun u => h.mem_iff.trans mem_active_iff
  have hleft : (r.visit order packet now).1 = packet.filter (fun p => !r.isActive p.universeId) := by
    rw [left_visit fun u hu => (hmem u).1 hu]
    congr 1
    funext p
    by_cases hp : r.isActive p.universeId <;> simp [hmem, hp]
  have hworkers : (r.visit order packet now).2.workers = (r.dispatch packet now).workers := by
    refine Directory.ext_find? ?_
    intro k
    rw [find?_visit hn, find?_dispatch]
    split
    · rfl
    · next hk =>
      rw [hmem, isActive, Directory.contains, Option.isSome_iff_ne_none, ne_eq, not_not] at hk
      rw [hk, Option.map_none]
  have houtlet : (r.visit order packet now).2.outlet = (r.dispatch packet now).outlet := by
    rw [outlet_visit hn, outlet_dispatch]
    exact h.foldl_eq' (fun _ _ _ _ o => offeredAt_comm o _ _) r.outlet
  obtain ⟨htimeout, hleaving, hclosed⟩ := @settings_visit r packet now order
  refine Prod.ext hleft ?_
  rw [Roster.mk.injEq]
  exact ⟨htimeout, hworkers, hleaving, houtlet, hclosed⟩

end Roster

end StreamingAcn
