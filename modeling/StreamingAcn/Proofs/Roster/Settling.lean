/-
StreamingAcn.Proofs.Roster.Settling — settling is one way to come to rest.

A roster that settles runs its workers one after the other, each until it has nothing to do, with a
consumer that receives whatever it can. All of that happens by stirs, and nothing is left to happen
afterwards. So a run can go on whatever is called next.
-/
import StreamingAcn.Proofs.Roster.Run

namespace StreamingAcn.Roster

open Delivery (Outlet Pipeline Worker)
open Relation (ReflTransGen)

theorem insert_find? {d : Directory UniverseId Worker} {u : UniverseId} {w : Worker}
    (h : d.find? u = some w) : d.insert u w = d := by
  refine Directory.ext_find? ?_
  intro k
  rw [Directory.find?_insert]
  split
  · next hk => rw [← hk, h]
  · rfl

theorem insert_insert (d : Directory UniverseId Worker) (u : UniverseId) (v w : Worker) :
    (d.insert u v).insert u w = d.insert u w := by
  refine Directory.ext_find? ?_
  intro k
  rw [Directory.find?_insert, Directory.find?_insert, Directory.find?_insert]
  split <;> rfl

/-- What the worker of an active universe or the consumer does is a stir of the roster. -/
theorem stir_of_active {r : Roster} {u : UniverseId} {p q : Pipeline}
    (h : Pipeline.Goes Pipeline.attended p q) (hw : r.workers.find? u = some p.worker)
    (ho : r.outlet = p.outlet) :
    Stir r { r with workers := r.workers.insert u q.worker, outlet := q.outlet } := by
  obtain ⟨timeout, workers, leaving, outlet, isClosed⟩ := r
  obtain rfl : outlet = p.outlet := ho
  obtain ⟨a, ha, hq⟩ := h
  rcases Pipeline.attended_cases ha with rfl | rfl | ha
  · obtain ⟨s, hs, rfl⟩ := Option.map_eq_some_iff.1 hq
    simp only [insert_find? hw]
    exact .packet hs
  · obtain ⟨s, hs, rfl⟩ := Option.map_eq_some_iff.1 hq
    simp only [insert_find? hw]
    exact .report hs
  · exact .active hw ha hq

theorem stirs_of_active {r : Roster} {u : UniverseId} {p q : Pipeline}
    (h : ReflTransGen (Pipeline.Goes Pipeline.attended) p q)
    (hw : r.workers.find? u = some p.worker) (ho : r.outlet = p.outlet) :
    ReflTransGen Stir r { r with workers := r.workers.insert u q.worker, outlet := q.outlet } := by
  induction h using ReflTransGen.head_induction_on generalizing r with
  | refl => rw [insert_find? hw, ← ho]
  | @head p m hm _ ih =>
    have hnext := @ih { r with workers := r.workers.insert u m.worker, outlet := m.outlet }
      (by rw [Directory.find?_insert, if_pos rfl]) rfl
    simp only [insert_insert] at hnext
    exact .head (stir_of_active hm hw ho) hnext

/-- What a leaving worker or the consumer does is a stir of the roster. -/
theorem stir_of_leaving {r : Roster} {front back : List Worker} {p q : Pipeline}
    (h : Pipeline.Goes Pipeline.attended p q) (hl : r.leaving = front ++ p.worker :: back)
    (ho : r.outlet = p.outlet) :
    Stir r { r with leaving := front ++ q.worker :: back, outlet := q.outlet } := by
  obtain ⟨timeout, workers, leaving, outlet, isClosed⟩ := r
  obtain rfl : outlet = p.outlet := ho
  obtain ⟨a, ha, hq⟩ := h
  rcases Pipeline.attended_cases ha with rfl | rfl | ha
  · obtain ⟨s, hs, rfl⟩ := Option.map_eq_some_iff.1 hq
    simp only [← hl]
    exact .packet hs
  · obtain ⟨s, hs, rfl⟩ := Option.map_eq_some_iff.1 hq
    simp only [← hl]
    exact .report hs
  · exact .leaving hl ha hq

theorem stirs_of_leaving {r : Roster} {front back : List Worker} {p q : Pipeline}
    (h : ReflTransGen (Pipeline.Goes Pipeline.attended) p q)
    (hl : r.leaving = front ++ p.worker :: back) (ho : r.outlet = p.outlet) :
    ReflTransGen Stir r { r with leaving := front ++ q.worker :: back, outlet := q.outlet } := by
  induction h using ReflTransGen.head_induction_on generalizing r with
  | refl => rw [← hl, ← ho]
  | @head p m hm _ ih => exact .head (stir_of_leaving hm hl ho) (ih rfl rfl)

/-- The leaving workers settle one after the other. -/
theorem stirs_runAll (l : List Worker) {r : Roster} {front : List Worker}
    (hl : r.leaving = front ++ l) :
    ReflTransGen Stir r { r with
      leaving := front ++ (runAll Pipeline.settle l r.outlet).1
      outlet := (runAll Pipeline.settle l r.outlet).2 } := by
  induction l generalizing r front with
  | nil =>
    simp only [runAll, ← hl]
    exact .refl
  | cons w rest ih =>
    have hhead := stirs_of_leaving (Pipeline.settle_spec ⟨w, r.outlet⟩).1 hl rfl
    have htail := @ih
      { r with
        leaving := front ++ (Pipeline.settle ⟨w, r.outlet⟩).worker :: rest
        outlet := (Pipeline.settle ⟨w, r.outlet⟩).outlet }
      (front ++ [(Pipeline.settle ⟨w, r.outlet⟩).worker]) (by simp)
    simp only [List.append_assoc, List.singleton_append] at htail
    exact hhead.trans htail

/-- Leaving workers that are done are gone one after the other. -/
theorem stirs_gone (l : List Worker) {r : Roster} {front : List Worker}
    (hl : r.leaving = front ++ l) :
    ReflTransGen Stir r { r with leaving := front ++ l.filter (fun w => !w.isFinished) } := by
  induction l generalizing r front with
  | nil =>
    simp only [List.filter_nil, ← hl]
    exact .refl
  | cons w rest ih =>
    cases hf : w.isFinished with
    | true =>
      rw [List.filter_cons_of_neg (by simp [hf])]
      exact .head (.gone hl hf) (ih rfl)
    | false =>
      have htail := @ih r (front ++ [w]) (by simp [hl])
      rw [List.filter_cons_of_pos (by simp [hf])]
      simpa using htail

/-- What a directory of workers does with an entry while it settles. -/
abbrev settleEntry (_ : UniverseId) (w : Worker) (o : Outlet) : Worker × Outlet :=
  ((Pipeline.settle ⟨w, o⟩).worker, (Pipeline.settle ⟨w, o⟩).outlet)

/-- The workers of the active universes settle one after the other. -/
theorem stirs_mapState (l : List (UniverseId × Worker)) {r : Roster}
    {front : List (UniverseId × Worker)} (hl : r.workers.entries = front ++ l) :
    ∃ d : Directory UniverseId Worker,
      d.entries = front ++ (Directory.mapStateIn settleEntry l r.outlet).1 ∧
      ReflTransGen Stir r { r with
        workers := d
        outlet := (Directory.mapStateIn settleEntry l r.outlet).2 } := by
  induction l generalizing r front with
  | nil =>
    refine ⟨r.workers, ?_, .refl⟩
    rw [hl]
    rfl
  | cons e rest ih =>
    obtain ⟨u, w⟩ := e
    have hw : r.workers.find? u = some w :=
      (Directory.mem_entries_iff _ _ _).1 (by simp [hl])
    have hhead := stirs_of_active (Pipeline.settle_spec ⟨w, r.outlet⟩).1 hw rfl
    have hentries : (r.workers.insert u (Pipeline.settle ⟨w, r.outlet⟩).worker).entries =
        (front ++ [(u, (Pipeline.settle ⟨w, r.outlet⟩).worker)]) ++ rest := by
      rw [Directory.entries_insert_middle hl, List.append_assoc]
      rfl
    obtain ⟨d, hd, htail⟩ := @ih
      { r with
        workers := r.workers.insert u (Pipeline.settle ⟨w, r.outlet⟩).worker
        outlet := (Pipeline.settle ⟨w, r.outlet⟩).outlet } _ hentries
    refine ⟨d, ?_, hhead.trans htail⟩
    rw [hd, List.append_assoc]
    rfl

/-! ## Rest -/

theorem runAll_settled (l : List Worker) {o : Outlet} (hd : o.Drained) :
    (∀ w ∈ (runAll Pipeline.settle l o).1, w.Stuck) ∧
      (runAll Pipeline.settle l o).2.Drained := by
  induction l generalizing o with
  | nil =>
    refine ⟨?_, hd⟩
    intro w hw
    cases hw
  | cons v rest ih =>
    obtain ⟨-, hdrained, hstuck⟩ := Pipeline.settle_spec ⟨v, o⟩
    obtain ⟨ih1, ih2⟩ := ih hdrained
    refine ⟨?_, ih2⟩
    intro w hw
    rcases List.mem_cons.1 hw with rfl | hw
    · exact hstuck
    · exact ih1 w hw

theorem mapState_settled (l : List (UniverseId × Worker)) {o : Outlet} (hd : o.Drained) :
    (∀ e ∈ (Directory.mapStateIn settleEntry l o).1, e.2.Stuck) ∧
      (Directory.mapStateIn settleEntry l o).2.Drained := by
  induction l generalizing o with
  | nil =>
    refine ⟨?_, hd⟩
    intro e he
    cases he
  | cons v rest ih =>
    obtain ⟨-, hdrained, hstuck⟩ := Pipeline.settle_spec ⟨v.2, o⟩
    obtain ⟨ih1, ih2⟩ := ih hdrained
    refine ⟨?_, ih2⟩
    intro e he
    rcases List.mem_cons.1 he with rfl | he
    · exact hstuck
    · exact ih1 e he

/-- A settled roster has come to rest by stirs. -/
theorem settle_spec {r : Roster} (hd : r.outlet.Drained) :
    ReflTransGen Stir r r.settle ∧ r.settle.AtRest := by
  have hleaving := @stirs_runAll r.leaving r [] rfl
  obtain ⟨hstuck, hdrained⟩ := runAll_settled r.leaving hd
  rw [settle, runWorkers]
  generalize runAll Pipeline.settle r.leaving r.outlet = left at *
  obtain ⟨leaving, outlet⟩ := left
  obtain ⟨d, hentries, hactive⟩ := @stirs_mapState r.workers.entries
    { r with leaving := leaving, outlet := outlet } [] rfl
  obtain ⟨hstuck', hdrained'⟩ := mapState_settled r.workers.entries hdrained
  have hworkers : r.workers.mapState settleEntry outlet =
      (d, (Directory.mapStateIn settleEntry r.workers.entries outlet).2) := by
    obtain ⟨entries, ordered⟩ := d
    obtain rfl : entries = _ := hentries
    rfl
  have hgone := @stirs_gone leaving
    { r with
      workers := d
      leaving := leaving
      outlet := (Directory.mapStateIn settleEntry r.workers.entries outlet).2 } [] rfl
  simp only [hworkers]
  refine ⟨(hleaving.trans hactive).trans hgone, ?_⟩
  rw [atRest_iff]
  refine ⟨hdrained', ?_, ?_⟩
  · intro u w hw
    have hm := (Directory.mem_entries_iff _ _ _).2 hw
    rw [hentries] at hm
    exact hstuck' (u, w) hm
  · intro w hw
    obtain ⟨hm, hf⟩ := List.mem_filter.1 hw
    exact ⟨hstuck w hm, by simpa using hf⟩

theorem drained_dispatch {r : Roster} (hd : r.outlet.Drained) (packet : Option Packet)
    (now : Nat) : (r.dispatch packet now).outlet.Drained := by
  obtain ⟨hpackets, hreports⟩ := sinks_dispatch r packet now
  rw [Outlet.Drained, hpackets, hreports]
  exact hd

theorem drained_of_called {r r' : Roster} {e : Event} (hd : r.outlet.Drained)
    (hc : Called r e r') : r'.outlet.Drained := by
  rw [Outlet.Drained, hc.sinks.1, hc.sinks.2]
  exact hd

theorem settled_of_called {r r' : Roster} {e : Event} (hd : r.outlet.Drained)
    (hc : Called r e r') : ReflTransGen Stir r' r'.settle ∧ r'.settle.AtRest :=
  settle_spec (drained_of_called hd hc)

/-- Whatever is called, a run goes on. -/
theorem Run.settled {start r r' : Roster} {log : List Event} {e : Event} (h0 : start.AtRest)
    (h : Run start log r) (hc : Called r e r') : Run start (log ++ [e]) r'.settle := by
  obtain ⟨hs, hr⟩ := settled_of_called (atRest_iff.1 (h.atRest h0)).1 hc
  exact .call h hc hs hr

end StreamingAcn.Roster
