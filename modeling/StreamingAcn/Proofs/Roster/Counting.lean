/-
StreamingAcn.Proofs.Roster.Counting — nothing depends on what is counted.

Workers and rosters count, but they never look at their counters. So counters can be changed from
outside, in any way that leaves alone what workers and rosters count themselves, before or after
anything that happens, and it makes no difference.

Definitions:

* `Counters.Apart`: a change of counters that workers and rosters do not notice;
* `Counters.withReads`: the one that puts in what a receive loop counts.

Main statements:

* `stir_count`, `stir_of_count`: the stirs of a roster with other counters;
* `dispatch_count`: the same for a dispatch.
-/
import StreamingAcn.Proofs.Roster.Run

namespace StreamingAcn

open Delivery (Item Outlet Pipeline Step Worker)

/-- A change of counters that commutes with all that workers and rosters count. -/
structure Counters.Apart (g : Counters → Counters) : Prop where
  tally : ∀ c v, g (Counters.tally c v) = (g c).tally v
  overflow : ∀ c, g (Counters.overflow c) = (g c).overflow

/-- The counters with those of a receive loop in place of their own. -/
def Counters.withReads (c d : Counters) : Counters :=
  { c with
    datagramsReceived := d.datagramsReceived
    bytesReceived := d.bytesReceived
    datagramsInvalid := d.datagramsInvalid
    packetsUnmatched := d.packetsUnmatched
    readTimeouts := d.readTimeouts }

theorem Counters.apart_withReads (d : Counters) : Apart fun c => c.withReads d where
  tally _ v := by cases v <;> rfl
  overflow _ := rfl

namespace Delivery

variable {g : Counters → Counters}

/-- The outlet with other counters. -/
def Outlet.count (o : Outlet) (g : Counters → Counters) : Outlet :=
  { o with counters := g o.counters }

/-- The pipeline with other counters. -/
def Pipeline.count (p : Pipeline) (g : Counters → Counters) : Pipeline :=
  ⟨p.worker, p.outlet.count g⟩

theorem Outlet.put?_count (o : Outlet) (i : Item) :
    (o.count g).put? i = (o.put? i).map fun o' => o'.count g := by
  cases i with
  | packet p => cases h : o.packets.put? p <;> simp [put?, count, h]
  | report r => cases h : o.reports.put? r <;> simp [put?, count, h]

theorem Outlet.handOver?_count (o : Outlet) (i : Item) :
    (o.count g).handOver? i = (o.handOver? i).map fun o' => o'.count g := by
  cases i with
  | packet p => cases h : o.packets.handOver? p <;> simp [handOver?, count, h]
  | report r => cases h : o.reports.handOver? r <;> simp [handOver?, count, h]

theorem Outlet.offered_count (hg : Counters.Apart g) (o : Outlet) (w : Worker) (s : Step) :
    (o.count g).offered w s = (o.offered w s).count g := by
  unfold offered
  split
  · simp only [count, hg.overflow]
  · rfl

/-- What a worker does itself it does whatever the counters are. -/
theorem Pipeline.act?_count (hg : Counters.Apart g) (p : Pipeline) {a : Action} (ha : a ∈ own) :
    (p.count g).act? a = (p.act? a).map fun q => q.count g := by
  simp only [own, List.mem_cons, List.not_mem_nil, or_false] at ha
  rcases ha with rfl | rfl | rfl
  · simp only [act?, move?, count, Option.map_map]
    congr 1
    funext m
    obtain ⟨w, verdict⟩ := m
    cases verdict with
    | none => rfl
    | some v => simp only [Function.comp_apply, Outlet.count, hg.tally]
  · cases hi : p.worker.item? with
    | none => simp [act?, count, hi]
    | some i => cases ho : p.outlet.put? i <;> simp [act?, count, hi, ho, Outlet.put?_count]
  · cases hi : p.worker.item? with
    | none => simp [act?, count, hi]
    | some i =>
      cases ho : p.outlet.handOver? i <;> simp [act?, count, hi, ho, Outlet.handOver?_count]

end Delivery

namespace Roster

variable {g : Counters → Counters} {r r' : Roster}

theorem stir_count (hg : Counters.Apart g) (h : Stir r r') : Stir (r.count g) (r'.count g) := by
  cases h with
  | @active u w a p hw ha h =>
    have hq := Pipeline.act?_count hg ⟨w, r.outlet⟩ ha
    rw [h] at hq
    exact .active (r := r.count g) hw ha hq
  | @leaving front back w a p hl ha h =>
    have hq := Pipeline.act?_count hg ⟨w, r.outlet⟩ ha
    rw [h] at hq
    exact .leaving (r := r.count g) hl ha hq
  | gone hl hf => exact .gone (r := r.count g) hl hf
  | packet h => exact .packet (r := r.count g) h
  | report h => exact .report (r := r.count g) h

theorem stir_of_count (hg : Counters.Apart g) (h : Stir (r.count g) r') :
    ∃ m, Stir r m ∧ r' = m.count g := by
  cases h with
  | @active u w a p hw ha h =>
    have hq := Pipeline.act?_count hg ⟨w, r.outlet⟩ ha
    obtain ⟨q, hq, rfl⟩ := Option.map_eq_some_iff.1 (hq.symm.trans h)
    exact ⟨_, .active hw ha hq, rfl⟩
  | @leaving front back w a p hl ha h =>
    have hq := Pipeline.act?_count hg ⟨w, r.outlet⟩ ha
    obtain ⟨q, hq, rfl⟩ := Option.map_eq_some_iff.1 (hq.symm.trans h)
    exact ⟨_, .leaving hl ha hq, rfl⟩
  | gone hl hf => exact ⟨_, .gone hl hf, rfl⟩
  | packet h => exact ⟨_, .packet h, rfl⟩
  | report h => exact ⟨_, .report h, rfl⟩

theorem activate_count (u : UniverseId) (now : Nat) (join : Except ReceiverError Unit) :
    (r.count g).activate u now join = (r.activate u now join).count g := by
  have hact : (r.count g).activation u join = r.activation u join := rfl
  unfold activate
  rw [hact]
  split <;> rfl

theorem deactivate_count (u : UniverseId) :
    (r.count g).deactivate u = (r.deactivate u).count g := by
  have hfind : (r.count g).workers.find? u = r.workers.find? u := rfl
  unfold deactivate
  rw [hfind]
  split <;> rfl

theorem shutdown_count : (r.count g).shutdown = r.shutdown.count g := by
  have hclosed : (r.count g).isClosed = r.isClosed := rfl
  unfold shutdown
  rw [hclosed]
  split <;> rfl

theorem dispatch_count (hg : Counters.Apart g) (packet : Option Packet) (now : Nat) :
    (r.count g).dispatch packet now = (r.dispatch packet now).count g := by
  have hfold : ∀ (entries : List (UniverseId × Worker)) (o : Outlet),
      entries.foldl (fun o e => o.offered e.2 (stepFor packet now e.1)) (o.count g) =
        (entries.foldl (fun o e => o.offered e.2 (stepFor packet now e.1)) o).count g := by
    intro entries
    induction entries with
    | nil => intro o; rfl
    | cons e rest ih =>
      intro o
      rw [List.foldl_cons, List.foldl_cons, Outlet.offered_count hg, ih]
  have houtlet := hfold r.workers.entries r.outlet
  simp only [dispatch, count, Outlet.count] at houtlet ⊢
  rw [houtlet]

end Roster

end StreamingAcn
