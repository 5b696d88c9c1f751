/-
StreamingAcn.Proofs.Roster.Crew — all workers of a roster in one row.

A worker is that of an active universe or on its way out, and what it does by itself is the same in
both places. In one row the workers of a roster change in three ways only: one of them acts, one
that is done is gone, or the consumer receives and none of them changes. Each of the three takes
some of the effort that is left, so a roster cannot stir for ever.

Definitions:

* `crew`: the workers of the active universes, then those that are leaving;
* `pending`, `inHand`: what all of them have still to handle and to get rid of;
* `Change`: the three things that can happen to the row.

Main statements:

* `change_of_stir`: a stir is one of the three;
* `no_endless_stirring`: every row of stirs comes to an end.
-/
import StreamingAcn.Proofs.Delivery.Moves
import StreamingAcn.Proofs.Roster.Run
import Mathlib.Algebra.Ring.Nat

namespace StreamingAcn

open Delivery (Item Outlet Pipeline Step Worker)
open Relation (ReflTransGen)

namespace Roster

/-! ## The row of workers -/

def crew (r : Roster) : List Worker := r.workers.values ++ r.leaving

/-- The steps that the workers have taken on and not handled yet. -/
def pending (r : Roster) : List Step := r.crew.flatMap Worker.pending

/-- The items that the workers want to get rid of. -/
def inHand (r : Roster) : List Item := r.crew.flatMap fun w => w.item?.toList

/-- What happens to the workers of a roster and to its outlet. -/
inductive Change (r r' : Roster) : Prop
  | acts {front back : List Worker} {w v : Worker} {a : Delivery.Action}
      (hcrew : r.crew = front ++ w :: back) (hcrew' : r'.crew = front ++ v :: back)
      (ha : a ∈ Pipeline.own) (h : Pipeline.act? ⟨w, r.outlet⟩ a = some ⟨v, r'.outlet⟩)
  | leaves {front back : List Worker} {w : Worker} (hcrew : r.crew = front ++ w :: back)
      (hcrew' : r'.crew = front ++ back) (hf : w.isFinished = true) (houtlet : r'.outlet = r.outlet)
  | receives (hcrew : r'.crew = r.crew) (h : Outlet.Received r.outlet r'.outlet)

variable {r r' : Roster}

theorem mem_crew_iff {w : Worker} :
    w ∈ r.crew ↔ (∃ u, r.workers.find? u = some w) ∨ w ∈ r.leaving := by
  rw [crew, List.mem_append, Directory.values, List.mem_map]
  simp only [← Directory.mem_entries_iff, Prod.exists, exists_eq_right]

theorem entries_eq_nil_iff {d : Directory UniverseId Worker} :
    d.entries = [] ↔ ∀ k, d.find? k = none := by
  constructor
  · intro h k
    rw [Directory.find?, h]
    rfl
  · intro h
    cases he : d.entries with
    | nil => rfl
    | cons e rest =>
      have hm := (Directory.mem_entries_iff d e.1 e.2).1 (by simp [he])
      rw [h] at hm
      cases hm

/-- The worker of an active universe has one place in the row, also when it changes. -/
theorem crew_of_find? {u : UniverseId} {w : Worker} (hw : r.workers.find? u = some w) :
    ∃ front back, r.crew = front ++ w :: back ∧ ∀ v o,
      crew { r with workers := r.workers.insert u v, outlet := o } = front ++ v :: back := by
  obtain ⟨front, back, hentries⟩ := List.append_of_mem ((Directory.mem_entries_iff _ _ _).2 hw)
  refine ⟨front.map (·.2), back.map (·.2) ++ r.leaving, ?_, ?_⟩
  · simp [crew, Directory.values, hentries]
  · intro v o
    simp [crew, Directory.values, Directory.entries_insert_middle hentries]

theorem change_of_stir (h : Stir r r') : Change r r' := by
  cases h with
  | active hw ha h =>
    obtain ⟨front, back, hcrew, hcrew'⟩ := crew_of_find? hw
    exact .acts hcrew (hcrew' _ _) ha h
  | @leaving front back w a p hl ha h =>
    have hcrew : r.crew = (r.workers.values ++ front) ++ w :: back := by
      rw [crew, hl, List.append_assoc]
    exact .acts hcrew (List.append_assoc _ _ _).symm ha h
  | @gone front back w hl hf =>
    have hcrew : r.crew = (r.workers.values ++ front) ++ w :: back := by
      rw [crew, hl, List.append_assoc]
    exact .leaves hcrew (List.append_assoc _ _ _).symm hf rfl
  | packet h => exact .receives rfl (Outlet.received_packet h)
  | report h => exact .receives rfl (Outlet.received_report h)

/-- What happens by itself neither opens nor closes a roster, and activates no universe. -/
theorem settings_stir (h : Stir r r') :
    r'.timeout = r.timeout ∧ r'.isClosed = r.isClosed ∧ ∀ u, r'.isActive u = r.isActive u := by
  cases h with
  | @active u w a p hw ha h =>
    refine ⟨rfl, rfl, ?_⟩
    intro k
    rw [isActive, isActive, Directory.contains, Directory.contains, Directory.find?_insert]
    split
    · next hk => rw [← hk, hw]; rfl
    · rfl
  | leaving => exact ⟨rfl, rfl, fun _ => rfl⟩
  | gone => exact ⟨rfl, rfl, fun _ => rfl⟩
  | packet => exact ⟨rfl, rfl, fun _ => rfl⟩
  | report => exact ⟨rfl, rfl, fun _ => rfl⟩

theorem isClosed_stirs (hs : ReflTransGen Stir r r') : r'.isClosed = r.isClosed := by
  induction hs with
  | refl => rfl
  | tail _ hs ih => exact (settings_stir hs).2.1.trans ih

theorem isClosed_shutdown (r : Roster) : r.shutdown.isClosed = true := by
  unfold shutdown
  split
  · next h => exact h
  · rfl

theorem fits_stir (hf : r.outlet.Fits) (h : Stir r r') : r'.outlet.Fits := by
  cases change_of_stir h with
  | acts _ _ ha h => exact Pipeline.fits_act? hf ha h
  | leaves _ _ _ houtlet => exact houtlet ▸ hf
  | receives _ h => exact h.fits hf

/-- What happens by itself counts nothing but a verdict. -/
theorem counters_stir (h : Stir r r') :
    r'.counters = r.counters ∨ ∃ v, r'.counters = r.counters.tally v := by
  cases change_of_stir h with
  | acts _ _ ha hq =>
    rcases Pipeline.outlet_act? ha hq with ⟨verdict, -, ho⟩ | ⟨i, -, -, ho | ho⟩
    · rw [counters, show r'.outlet = Pipeline.counted r.outlet verdict from ho]
      cases verdict with
      | none => exact .inl rfl
      | some v => exact .inr ⟨v, rfl⟩
    · exact .inl (Outlet.counters_put? ho)
    · exact .inl (Outlet.counters_handOver? ho)
  | leaves _ _ _ houtlet => exact .inl (congrArg (·.counters) houtlet)
  | receives _ hreceived => exact .inl hreceived.counters

/-! ## No endless stirring -/

/-- A bound on what can happen by itself. -/
def effort (r : Roster) : Nat := (r.crew.map Worker.effort).sum + r.outlet.load + r.crew.length

theorem effort_stir (h : Stir r r') : r'.effort < r.effort := by
  cases change_of_stir h with
  | acts hcrew hcrew' ha h =>
    have hlt := Pipeline.effort_own ha h
    simp only [Pipeline.effort] at hlt
    simp only [effort, hcrew, hcrew', List.map_append, List.map_cons, List.sum_append,
      List.sum_cons, List.length_append, List.length_cons]
    omega
  | leaves hcrew hcrew' hf houtlet =>
    simp only [effort, hcrew, hcrew', houtlet, List.map_append, List.map_cons, List.sum_append,
      List.sum_cons, List.length_append, List.length_cons]
    omega
  | receives hcrew h =>
    have := h.load
    simp only [effort, hcrew]
    omega

/-- Every row of stirs comes to an end. -/
theorem no_endless_stirring : ¬ ∃ f : Nat → Roster, ∀ n, Stir (f n) (f (n + 1)) := by
  rintro ⟨f, hf⟩
  have hbound : ∀ n, (f n).effort + n ≤ (f 0).effort := by
    intro n
    induction n with
    | zero => exact Nat.le_refl _
    | succ n ih =>
      have := effort_stir (hf n)
      omega
  have := hbound ((f 0).effort + 1)
  omega

end Roster

end StreamingAcn
