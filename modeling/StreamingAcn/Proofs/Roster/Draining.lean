/-
StreamingAcn.Proofs.Roster.Draining — what the workers still put out.

What a worker is going to put out is settled once nobody offers it steps any more: the item in its
hand, then what its arbiter puts out on the steps that it does not discard. Several workers share
the sinks, so their items get in between each other, but those of one worker stay in order and
nothing is added or lost. When the last worker is gone, all of it is out.

Definitions:

* `Interleaves`: some rows are merged to one, each in its own order;
* `Worker.outstanding`, `Roster.backlog`: what a worker, or every worker, is still going to put out;
* `Roster.Tidy`: the workers on their way out are let go of, and a closed roster has no others.

Main statements:

* `outstanding_act?`: what a worker puts out is what was outstanding first;
* `passed_of_shutdown`: before its sinks are disconnected, a roster that was shut down has put out
  its whole backlog.
-/
import StreamingAcn.Proofs.Roster.Lifecycle

namespace StreamingAcn

open Delivery (Item Outlet Pipeline Step Worker)
open Relation (ReflTransGen)

/-- Some rows are merged to one: the next element is the first of any row that is left. -/
inductive Interleaves {α : Type} : List (List α) → List α → Prop
  | nil : Interleaves [] []
  | done {front back : List (List α)} {xs : List α} (h : Interleaves (front ++ back) xs) :
      Interleaves (front ++ [] :: back) xs
  | take {front back : List (List α)} {l xs : List α} {x : α}
      (h : Interleaves (front ++ l :: back) xs) :
      Interleaves (front ++ (x :: l) :: back) (x :: xs)

/-- Merging rows adds nothing and loses nothing. -/
theorem Interleaves.perm {α : Type} {ls : List (List α)} {xs : List α} (h : Interleaves ls xs) :
    xs.Perm ls.flatten := by
  induction h with
  | nil => exact .nil
  | done _ ih => simpa using ih
  | take _ ih =>
    simp only [List.flatten_append, List.flatten_cons, List.cons_append] at ih ⊢
    exact (ih.cons _).trans List.perm_middle.symm

namespace Delivery

namespace Worker

/-- The steps in the queue that a worker does not discard. -/
def retained (w : Worker) : List Step := if w.isActive then w.queue else []

/-- The steps that a worker is going to handle if it is offered no more. -/
def committed (w : Worker) : List Step :=
  match w.phase with
  | .waiting | .sending _ => w.retained
  | .taken s => if w.isActive then s :: w.queue else []
  | .cleared s => s :: w.retained
  | .finished => []

/-- The items that a worker is going to put out if it is offered no more steps. -/
def outstanding (w : Worker) : List Item := w.item?.toList ++ w.arbiter.items w.committed

variable {w v : Worker} {verdict : Option Arbitration.Verdict}

theorem outstanding_of_finished (h : w.isFinished = true) : w.outstanding = [] := by
  have hp : w.phase = .finished := by simpa [isFinished] using h
  simp [outstanding, committed, item?, hp]

/-- The worker of an active universe discards nothing that it has taken on. -/
theorem outstanding_of_serving (h : w.Serving) : w.outstanding = w.due := by
  have hgoing : w.phase ≠ .finished := by simpa [isFinished] using h.going
  have hcommitted : w.committed = w.pending := by
    cases hp : w.phase <;> simp [committed, retained, pending, hp, h.active] at hgoing ⊢
  rw [outstanding, hcommitted, due]

/-- A step that is handled is committed no longer, and what came of it is in hand. -/
theorem committed_handle (w : Worker) (s : Step) : (w.handle s).1.committed = w.retained := by
  cases hi : Item.ofVerdict? w.universeId s (w.arbiter.handle s.packet s.time).1 <;>
    simp [committed, retained, handle, hi]

/-- A move puts nothing out, and loses nothing but steps that were going to be discarded. -/
theorem outstanding_move? (h : w.move? = some (v, verdict)) : v.outstanding = w.outstanding := by
  rcases move?_cases h with ⟨s, rest, hp, hq, rfl, -⟩ | ⟨hp, hq, -, rfl, -⟩ | ⟨s, hp, ha, rfl, -⟩ |
    ⟨s, hp, ha, rfl, -⟩ | ⟨s, hp, rfl, -⟩
  · simp [outstanding, committed, retained, item?, hp, hq]
  · simp [outstanding, committed, retained, item?, hp, hq]
  · simp [outstanding, committed, item?, hp, ha, retained]
  · simp [outstanding, committed, item?, hp, ha]
  · obtain ⟨-, hitem, harbiter, -⟩ := w.handle_spec s
    rw [outstanding, hitem, harbiter, committed_handle, outstanding, committed, item?, hp]
    rfl

theorem outstanding_sent {i : Item} (h : w.item? = some i) :
    w.outstanding = i :: w.sent.outstanding := by
  unfold item? at h
  split at h
  · next j hp =>
    obtain rfl := Option.some.inj h
    rw [outstanding, committed, item?, hp]
    rfl
  · cases h

end Worker

/-- What a worker does puts out what was outstanding first, or nothing. -/
theorem Pipeline.outstanding_act? {p q : Pipeline} {a : Action} (hf : p.outlet.Fits)
    (ha : a ∈ own) (h : p.act? a = some q) :
    (q.worker.outstanding = p.worker.outstanding ∧ Outlet.Passed p.outlet q.outlet []) ∨
      ∃ i, p.worker.outstanding = i :: q.worker.outstanding ∧
        Outlet.Passed p.outlet q.outlet [i] := by
  rcases act?_own_cases ha h with ⟨verdict, hm, hpackets, hreports⟩ | ⟨i, hi, hw, ho | ho⟩
  · exact .inl ⟨Worker.outstanding_move? hm, .nil hpackets hreports⟩
  · exact .inr ⟨i, hw ▸ Worker.outstanding_sent hi, Outlet.passed_put? ho⟩
  · exact .inr ⟨i, hw ▸ Worker.outstanding_sent hi, Outlet.passed_handOver? hf ho⟩

end Delivery

namespace Roster

variable {r r' : Roster}

/-- When no worker is left, everything that was outstanding is out, and nothing else. -/
theorem outstanding_passed (hf : r.outlet.Fits) (hs : ReflTransGen Stir r r') (hend : r'.crew = []) :
    ∃ items, Interleaves (r.crew.map Worker.outstanding) items ∧
      Outlet.Passed r.outlet r'.outlet items := by
  -- From the front, since a stir takes the first item of a row, or a row that has none left.
  induction hs using ReflTransGen.head_induction_on with
  | refl =>
    rw [hend]
    exact ⟨[], .nil, .nil rfl rfl⟩
  | head hstir _ ih =>
    obtain ⟨items, hmerged, hpassed⟩ := ih (fits_stir hf hstir)
    cases change_of_stir hstir with
    | acts hcrew hcrew' ha h =>
      rw [hcrew', List.map_append, List.map_cons] at hmerged
      rw [hcrew, List.map_append, List.map_cons]
      rcases Pipeline.outstanding_act? hf ha h with ⟨hsame, hnone⟩ | ⟨i, hfirst, hone⟩
      · exact ⟨items, hsame ▸ hmerged, hnone.trans hpassed⟩
      · exact ⟨i :: items, hfirst ▸ hmerged.take, hone.trans hpassed⟩
    | leaves hcrew hcrew' hfinished houtlet =>
      rw [hcrew', List.map_append] at hmerged
      rw [hcrew, List.map_append, List.map_cons, Worker.outstanding_of_finished hfinished]
      exact ⟨items, hmerged.done, houtlet ▸ hpassed⟩
    | receives hcrew hreceived =>
      rw [hcrew] at hmerged
      exact ⟨items, hmerged, hreceived.packets ▸ hpassed.packets,
        hreceived.reports ▸ hpassed.reports⟩

/-! ## Rosters in good order -/

/-- The sinks hold no more than they can, the workers of active universes serve, nobody holds on to
a worker that was taken out, and a closed roster has no worker but those. -/
structure Tidy (r : Roster) : Prop where
  fits : r.outlet.Fits
  serving : ∀ u w, r.workers.find? u = some w → w.Serving
  released : ∀ w ∈ r.leaving, w.isHeld = false
  agrees : ∃ g, r.Agrees g

theorem tidy_start (timeout capacity : Nat) : Tidy (Roster.start timeout capacity) where
  fits := ⟨Nat.zero_le _, Nat.zero_le _⟩
  serving u w hw := by cases hw
  released w hw := by cases hw
  agrees := ⟨_, agrees_start timeout capacity⟩

/-- Where a worker that serves is put in, all of them still serve. -/
theorem serving_insert {d : Directory UniverseId Worker} {u : UniverseId} {w : Worker}
    (h : ∀ k v, d.find? k = some v → v.Serving) (hw : w.Serving) :
    ∀ k v, (d.insert u w).find? k = some v → v.Serving := by
  intro k v hv
  rw [Directory.find?_insert] at hv
  split at hv
  · rw [← Option.some.inj hv]
    exact hw
  · exact h k v hv

namespace Tidy

theorem stir (h : Tidy r) (hs : Stir r r') : Tidy r' := by
  have hagrees : ∃ g, r'.Agrees g := h.agrees.imp fun _ hg => hg.goes (.inl hs)
  have hfits : r'.outlet.Fits := fits_stir h.fits hs
  cases hs with
  | @active u w a p hw ha hact =>
    have hserving := (Pipeline.act?_due (h.serving u w hw) h.fits ha hact).1
    exact ⟨hfits, serving_insert h.serving hserving, h.released, hagrees⟩
  | @leaving front back w a p hl ha hact =>
    obtain ⟨-, hheld, -⟩ := Pipeline.flags_act? ha hact
    refine ⟨hfits, h.serving, ?_, hagrees⟩
    intro v hv
    rcases List.mem_append.1 hv with hv | hv
    · exact h.released v (by simp [hl, hv])
    · rcases List.mem_cons.1 hv with rfl | hv
      · rw [hheld]
        exact h.released w (by simp [hl])
      · exact h.released v (by simp [hl, hv])
  | gone hl hf =>
    exact ⟨hfits, h.serving, fun v hv => h.released v (hl ▸ mem_around hv), hagrees⟩
  | packet => exact ⟨hfits, h.serving, h.released, hagrees⟩
  | report => exact ⟨hfits, h.serving, h.released, hagrees⟩

theorem count (h : Tidy r) (f : Counters → Counters) : Tidy (r.count f) :=
  ⟨h.fits, h.serving, h.released, h.agrees.imp fun _ hg => hg.of_same rfl fun _ => rfl⟩

theorem activate (h : Tidy r) (u : UniverseId) (now : Nat) (join : Except ReceiverError Unit) :
    Tidy (r.activate u now join) := by
  obtain ⟨g, hg⟩ := h.agrees
  have hagrees := (hg.activate u now join).2
  unfold Roster.activate at hagrees ⊢
  split at hagrees
  · exact ⟨h.fits, serving_insert h.serving ⟨rfl, rfl, rfl⟩, h.released, _, hagrees⟩
  · exact h

theorem deactivate (h : Tidy r) (u : UniverseId) : Tidy (r.deactivate u) := by
  obtain ⟨g, hg⟩ := h.agrees
  have hagrees := hg.deactivate u
  unfold Roster.deactivate at hagrees ⊢
  split at hagrees
  · exact h
  · refine ⟨h.fits, ?_, ?_, _, hagrees⟩
    · intro k v hv
      rw [Directory.find?_erase] at hv
      split at hv
      · cases hv
      · exact h.serving k v hv
    · intro v hv
      rcases List.mem_append.1 hv with hv | hv
      · exact h.released v hv
      · rw [List.mem_singleton.1 hv]
        rfl

theorem dispatch (h : Tidy r) (packet : Option Packet) (now : Nat) :
    Tidy (r.dispatch packet now) := by
  obtain ⟨hpackets, hreports⟩ := sinks_dispatch r packet now
  refine ⟨h.fits.of_sinks hpackets hreports, ?_, h.released,
    h.agrees.imp fun _ hg => hg.dispatch packet now⟩
  intro k v hv
  rw [find?_dispatch] at hv
  obtain ⟨w, hw, rfl⟩ := Option.map_eq_some_iff.1 hv
  exact Worker.serving_offer (h.serving k w hw) _

theorem shutdown (h : Tidy r) : Tidy r.shutdown := by
  obtain ⟨g, hg⟩ := h.agrees
  have hagrees := hg.shutdown
  by_cases hclosed : r.isClosed = true
  · rw [Roster.shutdown, if_pos hclosed]
    exact h
  · rw [Roster.shutdown, if_neg hclosed] at hagrees ⊢
    refine ⟨h.fits, ?_, ?_, _, hagrees⟩
    · intro k v hv
      cases hv
    · intro v hv
      rcases List.mem_append.1 hv with hv | hv
      · exact h.released v hv
      · obtain ⟨w, -, rfl⟩ := List.mem_map.1 hv
        rfl

/-- At rest the sinks are disconnected exactly if the roster is closed. -/
theorem sinks_of_atRest (h : Tidy r) (hr : r.AtRest) : r.sinksClosed = r.isClosed := by
  obtain ⟨g, hg⟩ := h.agrees
  refine hg.sinks_of_settled ?_
  rintro r' (hs | hp)
  · exact hr r' hs
  · cases hp with
    | tells hl hheld =>
      rw [h.released _ (by simp [hl])] at hheld
      cases hheld
    | letsGo hl hheld =>
      rw [h.released _ (by simp [hl])] at hheld
      cases hheld

end Tidy

/-! ## After the shutdown -/

theorem sinksClosed_iff : r.sinksClosed = true ↔ r.isClosed = true ∧ r.crew = [] := by
  simp [sinksClosed, crew, Directory.values, and_assoc]

/-- What the workers of a roster are going to put out: those on their way out discard what they have
queued if their universe was deactivated, and the others discard nothing. -/
def backlog (r : Roster) : List (List Item) :=
  r.leaving.map Worker.outstanding ++ r.workers.values.map Worker.due

theorem outstanding_shutdown (h : Tidy r) :
    r.shutdown.crew.map Worker.outstanding = r.backlog := by
  obtain ⟨g, hg⟩ := h.agrees
  unfold shutdown
  split
  · next hclosed =>
    obtain rfl := hg.isClosed.1 hclosed
    simp [crew, backlog, Directory.values, hg.workers_of_closed]
  · have hvalues : r.workers.values.map (Worker.outstanding ∘ Worker.release) =
        r.workers.values.map Worker.due := by
      refine List.map_congr_left ?_
      intro w hw
      obtain ⟨⟨u, v⟩, he, rfl⟩ := List.mem_map.1 hw
      have hserving := h.serving u v ((Directory.mem_entries_iff _ _ _).1 he)
      show v.outstanding = v.due
      exact Worker.outstanding_of_serving hserving
    simp only [crew, backlog, List.map_append, List.map_map, hvalues]
    rfl

/-- Before its sinks are disconnected, a roster that was shut down has put out all that was to be
put out before. -/
theorem passed_of_shutdown (h : Tidy r) (hs : ReflTransGen Stir r.shutdown r')
    (hend : r'.sinksClosed = true) :
    ∃ items, Interleaves r.backlog items ∧ Outlet.Passed r.outlet r'.outlet items := by
  have hpassed := outstanding_passed h.shutdown.fits hs (sinksClosed_iff.1 hend).2
  rwa [outstanding_shutdown h, outlet_shutdown] at hpassed

/-- Once the sinks are disconnected, the consumer can receive what is in them, and no more. -/
theorem stirs_of_sinksClosed (h : r.sinksClosed = true) (hs : ReflTransGen Stir r r') :
    r'.sinksClosed = true ∧ r'.counters = r.counters ∧
      r'.outlet.packets.flow = r.outlet.packets.flow ∧
      r'.outlet.reports.flow = r.outlet.reports.flow := by
  induction hs with
  | refl => exact ⟨h, rfl, rfl, rfl⟩
  | @tail m r' _ hstir ih =>
    obtain ⟨hsinks, hcounters, hpackets, hreports⟩ := ih
    obtain ⟨hclosed, hcrew⟩ := sinksClosed_iff.1 hsinks
    cases change_of_stir hstir with
    | acts hcrew' => simp [hcrew] at hcrew'
    | leaves hcrew' => simp [hcrew] at hcrew'
    | receives hcrew' hreceived =>
      exact ⟨sinksClosed_iff.2 ⟨(settings_stir hstir).2.1.trans hclosed, hcrew'.trans hcrew⟩,
        hreceived.counters.trans hcounters, hreceived.packets.trans hpackets,
        hreceived.reports.trans hreports⟩

end Roster

end StreamingAcn
