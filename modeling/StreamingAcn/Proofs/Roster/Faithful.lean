/-
StreamingAcn.Proofs.Roster.Faithful — workers that go with the chronicles of their universes.

The worker of a universe and the chronicle of that universe go together: the worker is going to
know what the arbiter of the present span knows, and what it has put out and still owes is what the
arbiters of all the spans put out. Whatever a worker or the consumer does keeps this so for every
universe, for the own one because what goes out is owed no longer, and for all others because it is
not about them.

Definitions:

* `Accounts`: what has gone out and what is owed of a universe make up some items;
* `Serves`, `Matches`: a worker goes with the present span of its universe;
* `Faithful`: every universe is served according to its chronicle.

Main statement: `faithful_stir`, what happens by itself keeps a roster faithful.
-/
import StreamingAcn.Proofs.Roster.Chronicle

namespace StreamingAcn.Roster

open Arbitration (Arbiter)
open Delivery (Item Outlet Pipeline Report Step Worker)
open Relation (ReflTransGen)

/-! ## What has gone out -/

/-- What has gone through an outlet for a universe, and then some items, are certain items. -/
structure Accounts (o : Outlet) (u : UniverseId) (owed all : List Item) : Prop where
  packets : o.packets.flow.filter (fun p => p.universeId = u) ++ owed.filterMap Item.packet? =
    all.filterMap Item.packet?
  reports : o.reports.flow.filter (fun r => r.universeId = u) ++ owed.filterMap Item.report? =
    all.filterMap Item.report?

/-- Of some items about one universe, all are about that universe and none about another. -/
theorem filter_about {α : Type} {part : Item → Option α} {about : α → UniverseId}
    (hpart : ∀ i a, part i = some a → about a = i.universeId) {u v : UniverseId}
    {items : List Item} (h : ∀ i ∈ items, i.universeId = v) :
    (items.filterMap part).filter (fun a => about a = u) =
      if v = u then items.filterMap part else [] := by
  have hall : ∀ a ∈ items.filterMap part, about a = v := by
    intro a ha
    obtain ⟨i, hi, hia⟩ := List.mem_filterMap.1 ha
    rw [hpart i a hia, h i hi]
  split
  · next huv =>
    rw [List.filter_eq_self]
    intro a ha
    exact decide_eq_true ((hall a ha).trans huv)
  · next huv =>
    rw [List.filter_eq_nil_iff]
    intro a ha hau
    exact huv ((hall a ha).symm.trans (of_decide_eq_true hau))

theorem about_packet (i : Item) (p : Packet) (h : i.packet? = some p) :
    p.universeId = i.universeId := by
  cases i with
  | packet q => rw [← Option.some.inj h]; rfl
  | report r => cases h

theorem about_report (i : Item) (r : Report) (h : i.report? = some r) :
    r.universeId = i.universeId := by
  cases i with
  | packet p => cases h
  | report q => rw [← Option.some.inj h]; rfl

namespace Accounts

variable {o o' : Outlet} {u v : UniverseId} {owed all items : List Item}

/-- What goes out for a universe is owed no longer. -/
theorem pass (h : Accounts o u (items ++ owed) all) (hp : Outlet.Passed o o' items)
    (ha : ∀ i ∈ items, i.universeId = u) : Accounts o' u owed all := by
  constructor
  · rw [hp.packets, List.filter_append, filter_about about_packet ha, if_pos rfl, List.append_assoc,
      ← List.filterMap_append, h.packets]
  · rw [hp.reports, List.filter_append, filter_about about_report ha, if_pos rfl, List.append_assoc,
      ← List.filterMap_append, h.reports]

/-- What goes out for another universe makes no difference. -/
theorem pass_other (h : Accounts o u owed all) (hp : Outlet.Passed o o' items)
    (ha : ∀ i ∈ items, i.universeId = v) (hne : v ≠ u) : Accounts o' u owed all := by
  constructor
  · rw [hp.packets, List.filter_append, filter_about about_packet ha, if_neg hne, List.append_nil, h.packets]
  · rw [hp.reports, List.filter_append, filter_about about_report ha, if_neg hne, List.append_nil, h.reports]

/-- What is owed in addition is put out in addition. -/
theorem owe (h : Accounts o u owed all) (more : List Item) :
    Accounts o u (owed ++ more) (all ++ more) := by
  constructor
  · rw [List.filterMap_append, List.filterMap_append, ← List.append_assoc, h.packets]
  · rw [List.filterMap_append, List.filterMap_append, ← List.append_assoc, h.reports]

theorem of_flow (h : Accounts o u owed all) (hp : o'.packets.flow = o.packets.flow)
    (hr : o'.reports.flow = o.reports.flow) : Accounts o' u owed all :=
  ⟨hp ▸ h.packets, hr ▸ h.reports⟩

end Accounts

/-! ## Workers that go with their universe -/

/-- A worker goes with a span of its universe. -/
structure Serves (w : Worker) (u : UniverseId) (timeout : Nat) (p : Period) : Prop where
  serving : w.Serving
  eventual : w.eventual = p.arbiter u timeout
  about : ∀ i ∈ w.due, i.universeId = u

/-- A universe has a worker exactly while it has a present span, and the two go together. -/
inductive Matches (u : UniverseId) (timeout : Nat) : Option Period → Option Worker → Prop
  | absent : Matches u timeout none none
  | present {p : Period} {w : Worker} (h : Serves w u timeout p) :
      Matches u timeout (some p) (some w)

/-- A worker that puts out nothing any more. -/
structure Spent (w : Worker) : Prop where
  queue : w.queue = []
  phase : w.phase = .waiting ∨ w.phase = .finished

/-- What the worker of a universe still owes. -/
def owed (r : Roster) (u : UniverseId) : List Item :=
  match r.workers.find? u with
  | none => []
  | some w => w.due

/-- Every universe is served according to its chronicle. -/
structure Faithful (timeout : Nat) (book : UniverseId → Chronicle) (r : Roster) : Prop where
  timeout_eq : r.timeout = timeout
  fits : r.outlet.Fits
  leaving : ∀ w ∈ r.leaving, Spent w
  workers : ∀ u, Matches u timeout (book u).present (r.workers.find? u)
  accounts : ∀ u, Accounts r.outlet u (r.owed u) ((book u).items u timeout)
  valid : ∀ u, r.isActive u → UniverseId.check u = .ok () ∧ r.isClosed = false

theorem spent_act? {p q : Pipeline} {a : Delivery.Action} (hs : Spent p.worker)
    (ha : a ∈ Pipeline.own) (h : p.act? a = some q) :
    Spent q.worker ∧ q.outlet.packets = p.outlet.packets ∧ q.outlet.reports = p.outlet.reports := by
  rcases Pipeline.act?_own_cases ha h with ⟨verdict, hm, hpackets, hreports⟩ | ⟨i, hi, -⟩
  · refine ⟨?_, hpackets, hreports⟩
    rcases hs.phase with hp | hp
    · simp only [Worker.move?, hp, hs.queue] at hm
      split at hm
      · cases hm
      · rw [← (Prod.mk.inj (Option.some.inj hm)).1]
        exact ⟨rfl, .inr rfl⟩
    · simp [Worker.move?, hp] at hm
  · rcases hs.phase with hp | hp <;> simp [Worker.item?, hp] at hi

variable {timeout : Nat} {book : UniverseId → Chronicle} {r r' : Roster}

theorem present_of_find? (h : Faithful timeout book r) {u : UniverseId} {w : Worker}
    (hw : r.workers.find? u = some w) : ∃ p, (book u).present = some p ∧ Serves w u timeout p := by
  have hm := h.workers u
  rw [hw] at hm
  cases hp : (book u).present with
  | none =>
    rw [hp] at hm
    cases hm
  | some p =>
    rw [hp] at hm
    cases hm with
    | present hs => exact ⟨p, rfl, hs⟩

theorem isSome_present (h : Faithful timeout book r) (u : UniverseId) :
    (book u).present.isSome = r.isActive u := by
  have hm := h.workers u
  rw [isActive, Directory.contains]
  generalize (book u).present = span at hm
  generalize r.workers.find? u = w at hm
  cases hm with
  | absent => rfl
  | present hs => rfl

theorem present_of_find?_none (h : Faithful timeout book r) {u : UniverseId}
    (hw : r.workers.find? u = none) : (book u).present = none := by
  rw [← Option.not_isSome_iff_eq_none, isSome_present h, isActive, Directory.contains, hw]
  exact Bool.false_ne_true

theorem owed_insert {d : Outlet} {u v : UniverseId} {w : Worker} :
    owed { r with workers := r.workers.insert u w, outlet := d } v =
      if u = v then w.due else r.owed v := by
  simp only [owed, Directory.find?_insert]
  by_cases h : u = v
  · rw [if_pos h, if_pos h]
  · rw [if_neg h, if_neg h]

theorem owed_erase {u v : UniverseId} {l : List Worker} :
    owed { r with workers := r.workers.erase u, leaving := l } v =
      if u = v then [] else r.owed v := by
  simp only [owed, Directory.find?_erase]
  by_cases h : u = v
  · rw [if_pos h, if_pos h]
  · rw [if_neg h, if_neg h]

/-- A stir of the worker of an active universe keeps a roster faithful. -/
theorem faithful_active (h : Faithful timeout book r) {u : UniverseId} {w : Worker}
    {a : Delivery.Action} {p : Pipeline} (hw : r.workers.find? u = some w)
    (ha : a ∈ Pipeline.own) (hq : Pipeline.act? ⟨w, r.outlet⟩ a = some p) :
    Faithful timeout book { r with workers := r.workers.insert u p.worker, outlet := p.outlet } := by
  obtain ⟨span, hspan, hserves⟩ := present_of_find? h hw
  obtain ⟨hserving, hfits, heventual, items, hdue, hpassed⟩ :=
    Pipeline.act?_due hserves.serving h.fits ha hq
  have habout : ∀ i ∈ items ++ p.worker.due, i.universeId = u := hdue ▸ hserves.about
  have hitems : ∀ i ∈ items, i.universeId = u := fun i hi => habout i (List.mem_append_left _ hi)
  have hleft : Serves p.worker u timeout span :=
    ⟨hserving, heventual.trans hserves.eventual, fun i hi => habout i (List.mem_append_right _ hi)⟩
  refine ⟨h.timeout_eq, hfits, h.leaving, ?_, ?_, ?_⟩
  · intro v
    rw [Directory.find?_insert]
    by_cases huv : u = v
    · subst huv
      rw [hspan, if_pos rfl]
      exact .present hleft
    · rw [if_neg huv]
      exact h.workers v
  · intro v
    rw [owed_insert]
    by_cases huv : u = v
    · subst huv
      have hacc := h.accounts u
      rw [owed, hw] at hacc
      rw [if_pos rfl]
      refine Accounts.pass ?_ hpassed hitems
      exact hdue ▸ hacc
    · rw [if_neg huv]
      exact (h.accounts v).pass_other hpassed hitems huv
  · intro v hv
    refine h.valid v ?_
    rw [isActive, Directory.contains, Directory.find?_insert] at hv
    split at hv
    · next huv => rw [isActive, Directory.contains, ← huv, hw]; rfl
    · exact hv

theorem mem_around {α : Type} {a b : α} {front back : List α} (h : a ∈ front ++ back) :
    a ∈ front ++ b :: back := by
  rcases List.mem_append.1 h with h | h
  · exact List.mem_append_left _ h
  · exact List.mem_append_right _ (List.mem_cons_of_mem _ h)

/-- What happens by itself keeps a roster faithful to the same chronicles. -/
theorem faithful_stir (h : Faithful timeout book r) (hs : Stir r r') : Faithful timeout book r' := by
  cases hs with
  | active hw ha hq => exact faithful_active h hw ha hq
  | @leaving front back w a p hl ha hq =>
    obtain ⟨hspent, hpackets, hreports⟩ := spent_act? (p := ⟨w, r.outlet⟩)
      (h.leaving w (by simp [hl])) ha hq
    refine { h with fits := ?_, leaving := ?_, accounts := ?_ }
    · exact h.fits.of_sinks hpackets hreports
    · intro v hv
      have hv' : v = p.worker ∨ v ∈ front ++ back := by simpa [or_left_comm] using hv
      rcases hv' with rfl | hv'
      · exact hspent
      · exact h.leaving v (hl ▸ mem_around hv')
    · intro u
      exact (h.accounts u).of_flow (congrArg _ hpackets) (congrArg _ hreports)
  | @gone front back w hl hf =>
    refine { h with leaving := ?_ }
    intro v hv
    exact h.leaving v (hl ▸ mem_around hv)
  | @packet s hq =>
    refine { h with fits := ?_, accounts := ?_ }
    · exact ⟨Delivery.Sink.fits_receive? h.fits.1 hq, h.fits.2⟩
    · intro u
      exact (h.accounts u).of_flow (Delivery.Sink.flow_receive? hq) rfl
  | @report s hq =>
    refine { h with fits := ?_, accounts := ?_ }
    · exact ⟨h.fits.1, Delivery.Sink.fits_receive? h.fits.2 hq⟩
    · intro u
      exact (h.accounts u).of_flow rfl (Delivery.Sink.flow_receive? hq)

end StreamingAcn.Roster
