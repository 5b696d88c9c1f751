/-
StreamingAcn.Proofs.Roster.Departing — a worker that is told to stop.

A universe is deactivated while the steps of its worker are still queued and its item may wait for
room in a sink, and everything else goes on: other workers share the sinks, steps are dispatched,
and the same universe may be activated again while its old worker is still there. The worker is
followed through all of this. While its universe is active it is found under that universe; from
then on the roster is taken apart into the worker and the rest, and the rest is a roster that goes
on without it. Once the worker is told to stop, at most the step that it had checked before is
handled, and at most one item goes out.

Definitions:

* `Tenure`: the worker of a universe as long as that is active, with its log;
* `Departure`: the worker once it was taken out, with its log, and the rest of the roster;
* `Amidst`: a roster taken apart into a worker on its way out and the rest;
* `Stopped`: what becomes of a worker that was told to stop.

Main statements:

* `tenure_of_course`, `departure_of_course`: no interleaving is left out;
* `stopped_of_departure`: from when a worker is told to stop;
* `Departure.passed`: what the log says went out is in the sinks;
* `output_stops_once_told`.
-/
import StreamingAcn.Proofs.Delivery.Log
import StreamingAcn.Proofs.Roster.Draining

namespace StreamingAcn

open Arbitration (Arbiter)
open Delivery (Entry Item Outlet Pipeline Step Worker handledIn handledIn_append
  handledIn_singleton sentIn sentIn_append sentIn_singleton)
open Relation (ReflTransGen)

namespace Delivery.Worker

variable {w v : Worker} {e : Entry}

/-- The step that a worker has checked, but not yet handled. -/
def checked (w : Worker) : List Step :=
  match w.phase with
  | .cleared s => [s]
  | .waiting | .taken _ | .sending _ | .finished => []

/-- What a worker is going to handle is handled first come, first served. -/
theorem Does.committed (h : w.Does e v) : w.committed = e.handled?.toList ++ v.committed := by
  cases h with
  | takes hp hq => simp [Worker.committed, retained, Entry.handled?, hp, hq]
  | ends hp hq => simp [Worker.committed, retained, Entry.handled?, hp, hq]
  | checks hp hactive => simp [Worker.committed, retained, Entry.handled?, hp, hactive]
  | discards hp hactive => simp [Worker.committed, Entry.handled?, hp, hactive]
  | handles hp =>
    rw [committed_handle]
    simp [Worker.committed, Entry.handled?, hp]
  | sends hp =>
    rw [Worker.committed, hp]
    rfl

/-- What a worker is going to put out goes out first come, first served. -/
theorem Does.outstanding (h : w.Does e v) : w.outstanding = e.sent?.toList ++ v.outstanding := by
  obtain ⟨hitems, harbiter⟩ := h.items
  rw [Worker.outstanding, h.committed, Arbiter.items_append, ← List.append_assoc, hitems,
    List.append_assoc, ← harbiter, Worker.outstanding]

/-- A worker that was told to stop is going to handle the step that it has checked. -/
theorem committed_of_told (h : w.isActive = false) : w.committed = w.checked := by
  cases hp : w.phase <;> simp [committed, checked, retained, hp, h]

theorem outstanding_of_told (h : w.isActive = false) : w.outstanding.length ≤ 1 := by
  rw [outstanding, committed_of_told h, item?, checked]
  cases w.phase with
  | cleared s => cases hi : w.arbiter.item? s <;> simp [Arbiter.items_cons, hi]
  | _ => simp

/-- A bound on the acts of a worker that was told to stop. -/
def actsLeft (w : Worker) : Nat :=
  match w.phase with
  | .cleared _ => 4
  | .sending _ => 3
  | .waiting => 2
  | .taken _ => 1
  | .finished => 0

theorem actsLeft_le (w : Worker) : w.actsLeft ≤ 4 := by
  unfold actsLeft
  split <;> decide

theorem Does.actsLeft (h : w.Does e v) (hactive : w.isActive = false) :
    v.actsLeft < w.actsLeft := by
  cases h with
  | takes hp => simp [Worker.actsLeft, hp]
  | ends hp => simp [Worker.actsLeft, hp]
  | checks _ hactive' => exact absurd (hactive'.symm.trans hactive) (by decide)
  | discards hp => simp [Worker.actsLeft, hp]
  | @handles s hp =>
    have hv : (w.handle s).1.actsLeft ≤ 3 := by
      cases hi : Item.ofVerdict? w.universeId s (w.arbiter.handle s.packet s.time).1 <;>
        simp [Worker.actsLeft, handle, hi]
    have hw : w.actsLeft = 4 := by rw [Worker.actsLeft, hp]
    omega
  | sends hp => simp [Worker.actsLeft, sent, hp]

end Delivery.Worker

namespace Roster

/-! ## What a section does -/

/-- The step that a section offers to the worker of a universe. -/
def Section.offer? (u : UniverseId) : Section → Option Step
  | .dispatch packet now => some (stepFor packet now u)
  | .visit k packet now => if k = u then some (stepFor packet now u) else none
  | .activate _ _ _ | .deactivate _ | .detach _ | .shutdown => none

/-- What a section adds to the queue of the worker of a universe. -/
def Section.adds (s : Section) (u : UniverseId) (w : Worker) : List Step :=
  if w.admission = .queued then (s.offer? u).toList else []

/-- Whether a section leaves a universe active that is. -/
def Section.Spares (s : Section) (u : UniverseId) : Prop :=
  s ≠ .deactivate u ∧ s ≠ .detach u ∧ s ≠ .shutdown

variable {u : UniverseId} {start r r' : Roster} {accepted : List Step} {log : List Entry}
  {w : Worker}

theorem find?_erase_cases (hw : r.workers.find? u = some w) (k : UniverseId) :
    (r.workers.erase k).find? u = some w ∨ k = u ∧ (r.workers.erase k).find? u = none := by
  rw [Directory.find?_erase]
  split
  · next hk => exact .inr ⟨hk, rfl⟩
  · exact .inl hw

/-- A section adds to the queue of the worker of a universe what it offers, if it does not take the
worker out. -/
theorem find?_enter (hw : r.workers.find? u = some w) (s : Section) :
    (r.enter s).workers.find? u = some { w with queue := w.queue ++ s.adds u w } ∨
      ¬ s.Spares u ∧ (r.enter s).workers.find? u = none := by
  have hnone : s.offer? u = none → { w with queue := w.queue ++ s.adds u w } = w := by
    intro h
    simp [Section.adds, h]
  cases s with
  | activate k now join =>
    rw [hnone rfl, enter]
    by_cases hact : r.activation k join = .activated
    · have hne : k ≠ u := by
        rintro rfl
        rw [(activation_eq_activated hact).2.2] at hw
        cases hw
      rw [activate, hact, Directory.find?_insert, if_neg hne]
      exact .inl hw
    · rw [activate_of_not_activated hact]
      exact .inl hw
  | deactivate k =>
    rw [hnone rfl, enter, deactivate]
    split
    · exact .inl hw
    · refine (find?_erase_cases hw k).imp id ?_
      rintro ⟨rfl, hgone⟩
      exact ⟨fun h => h.1 rfl, hgone⟩
  | detach k =>
    rw [hnone rfl, enter, detach]
    split
    · exact .inl hw
    · refine (find?_erase_cases hw k).imp id ?_
      rintro ⟨rfl, hgone⟩
      exact ⟨fun h => h.2.1 rfl, hgone⟩
  | dispatch packet now =>
    rw [enter, find?_dispatch_of_some hw]
    exact .inl (congrArg some (w.offer_eq _))
  | visit k packet now =>
    rw [enter, find?_offerTo]
    split
    · next hk =>
      subst hk
      rw [hw, Section.adds, Section.offer?, if_pos rfl]
      exact .inl (congrArg some (w.offer_eq _))
    · next hk =>
      rw [hnone (if_neg (Ne.symm hk))]
      exact .inl hw
  | shutdown =>
    rw [hnone rfl, enter, shutdown]
    split
    · exact .inl hw
    · exact .inr ⟨fun h => h.2.2 rfl, rfl⟩

/-- A section does not look at the workers on their way out, and adds some at most. -/
theorem enter_leaving (r : Roster) (s : Section) : ∃ more, ∀ leaving,
    enter { r with leaving := leaving } s = { r.enter s with leaving := leaving ++ more } := by
  cases s with
  | activate u now join =>
    refine ⟨[], fun leaving => ?_⟩
    rw [List.append_nil]
    by_cases hact : r.activation u join = .activated
    · have hact' : activation { r with leaving := leaving } u join = .activated := hact
      rw [enter, enter, activate, activate, hact, hact']
    · have hact' : activation { r with leaving := leaving } u join ≠ .activated := hact
      rw [enter, enter, activate_of_not_activated hact, activate_of_not_activated hact']
  | deactivate u =>
    cases hw : r.workers.find? u with
    | none => exact ⟨[], fun leaving => by simp [enter, deactivate, hw]⟩
    | some w => exact ⟨[w.deactivate.release], fun leaving => by simp [enter, deactivate, hw]⟩
  | detach u =>
    cases hw : r.workers.find? u with
    | none => exact ⟨[], fun leaving => by simp [enter, detach, hw]⟩
    | some w => exact ⟨[w], fun leaving => by simp [enter, detach, hw]⟩
  | dispatch packet now => exact ⟨[], fun leaving => by simp [enter, dispatch]⟩
  | visit u packet now =>
    refine ⟨[], fun leaving => ?_⟩
    cases hw : r.workers.find? u <;> simp [enter, offerTo, hw]
  | shutdown =>
    cases hc : r.isClosed with
    | false =>
      exact ⟨r.workers.values.map Worker.release, fun leaving => by simp [enter, shutdown, hc]⟩
    | true => exact ⟨[], fun leaving => by simp [enter, shutdown, hc]⟩

theorem sinks_enter (r : Roster) (s : Section) :
    (r.enter s).outlet.packets = r.outlet.packets ∧
      (r.enter s).outlet.reports = r.outlet.reports := by
  cases s with
  | activate u now join =>
    rw [enter, outlet_activate]
    exact ⟨rfl, rfl⟩
  | deactivate u =>
    rw [enter, outlet_deactivate]
    exact ⟨rfl, rfl⟩
  | detach u =>
    rw [enter, detach]
    split <;> exact ⟨rfl, rfl⟩
  | dispatch packet now => exact sinks_dispatch r packet now
  | visit u packet now =>
    rw [enter, outlet_offerTo, offeredAt]
    split
    · exact ⟨rfl, rfl⟩
    · exact Outlet.sinks_offered _ _ _
  | shutdown =>
    rw [enter, outlet_shutdown]
    exact ⟨rfl, rfl⟩

theorem timeout_goes (hg : Goes r r') : r'.timeout = r.timeout := by
  rcases hg with hs | hp
  · exact (settings_stir hs).1
  · cases hp <;> rfl

theorem timeout_enter (r : Roster) (s : Section) : (r.enter s).timeout = r.timeout := by
  cases s with
  | activate u now join => rw [enter, activate]; split <;> rfl
  | deactivate u => rw [enter, deactivate]; split <;> rfl
  | detach u => rw [enter, detach]; split <;> rfl
  | dispatch packet now => rfl
  | visit u packet now => exact settings_offerTo.1
  | shutdown => rw [enter, shutdown]; split <;> rfl

theorem timeout_course {sections : List Section} {replies : List Reply}
    (course : registry.Course r sections replies r') : r'.timeout = r.timeout :=
  course.keeps (P := fun m => m.timeout = r.timeout) (fun _ _ h hg => (timeout_goes hg).trans h)
    (fun s _ m h => (timeout_enter m s).trans h) rfl

/-! ## In office -/

/-- The worker of a universe as long as that is active: the steps that got into its queue, the log
of its acts, where it got to, and the roster around it. -/
inductive Tenure (u : UniverseId) (start : Roster) :
    List Step → List Entry → Worker → Roster → Prop
  | start {w : Worker} (hw : start.workers.find? u = some w) : Tenure u start [] [] w start
  | acts {accepted : List Step} {log : List Entry} {w : Worker} {r : Roster} {a : Delivery.Action}
      {p : Pipeline} {e : Entry} (h : Tenure u start accepted log w r) (ha : a ∈ Pipeline.own)
      (hq : Pipeline.act? ⟨w, r.outlet⟩ a = some p) (hd : w.Does e p.worker) :
      Tenure u start accepted (log ++ [e]) p.worker
        { r with workers := r.workers.insert u p.worker, outlet := p.outlet }
  | goes {accepted : List Step} {log : List Entry} {w : Worker} {r r' : Roster}
      (h : Tenure u start accepted log w r) (hg : Goes r r') (hw : r'.workers.find? u = some w) :
      Tenure u start accepted log w r'
  | enters {accepted : List Step} {log : List Entry} {w w' : Worker} {r : Roster}
      (h : Tenure u start accepted log w r) (s : Section)
      (hw : (r.enter s).workers.find? u = some w') :
      Tenure u start (accepted ++ s.adds u w) log w' (r.enter s)

/-- A worker is found under its universe. -/
theorem Tenure.find? (h : Tenure u start accepted log w r) : r.workers.find? u = some w := by
  cases h with
  | start hw => exact hw
  | acts => simp [Directory.find?_insert]
  | goes _ _ hw => exact hw
  | enters _ _ hw => exact hw

/-- Whatever happens to a roster of itself, it is part of the tenure of the worker. -/
theorem Tenure.going (h : Tenure u start accepted log w r) (hg : Goes r r') :
    ∃ log w, Tenure u start accepted log w r' := by
  rcases hg with hs | hp
  · cases hs with
    -- Only what the worker does itself goes into its log.
    | @active k v a p hv ha hq =>
      by_cases hk : k = u
      · subst hk
        rw [h.find?] at hv
        cases hv
        obtain ⟨e, hd⟩ := Pipeline.does_act? ha hq
        exact ⟨_, _, h.acts ha hq hd⟩
      · refine ⟨log, w, h.goes (.inl (.active hv ha hq)) ?_⟩
        rw [Directory.find?_insert, if_neg hk]
        exact h.find?
    | leaving hl ha hq => exact ⟨log, w, h.goes (.inl (.leaving hl ha hq)) h.find?⟩
    | gone hl hf => exact ⟨log, w, h.goes (.inl (.gone hl hf)) h.find?⟩
    | packet hr => exact ⟨log, w, h.goes (.inl (.packet hr)) h.find?⟩
    | report hr => exact ⟨log, w, h.goes (.inl (.report hr)) h.find?⟩
  · refine ⟨log, w, h.goes (.inr hp) ?_⟩
    cases hp with
    | tells => exact h.find?
    | letsGo => exact h.find?

/-- Whatever happens to a roster in which a universe stays active, it is the tenure of a worker. -/
theorem tenure_of_course (h : Tenure u start accepted log w r) {sections : List Section}
    {replies : List Reply} (course : registry.Course r sections replies r')
    (hspared : ∀ s ∈ sections, s.Spares u) :
    ∃ accepted log w, Tenure u start accepted log w r' := by
  refine course.keeps (P := fun r => ∃ accepted log w, Tenure u start accepted log w r) ?_ ?_
    ⟨accepted, log, w, h⟩
  · rintro r r' ⟨accepted, log, w, h⟩ hg
    obtain ⟨log', w', h'⟩ := h.going hg
    exact ⟨accepted, log', w', h'⟩
  · rintro s hs r ⟨accepted, log, w, h⟩
    rcases find?_enter h.find? s with hw | ⟨hnot, -⟩
    · exact ⟨_, log, _, h.enters s hw⟩
    · exact absurd (hspared s hs) hnot

/-- While its universe is active, a worker is not told to stop, and is accounted for. -/
theorem Tenure.accounted {fresh : Arbiter} (h : Tenure u start accepted log w r)
    (hstart : ∀ w₀, start.workers.find? u = some w₀ → w₀.Serving ∧ w₀.Accounted fresh [] []) :
    w.Serving ∧ w.Accounted fresh accepted log := by
  induction h with
  | start hw => exact hstart _ hw
  | acts _ _ _ hd ih =>
    obtain ⟨hserving, haccounted⟩ := ih
    exact ⟨hd.serving hserving, haccounted.does hd hserving.active⟩
  | goes _ _ _ ih => exact ih
  | enters h s hw ih =>
    obtain ⟨hserving, haccounted⟩ := ih
    rcases find?_enter h.find? s with hw' | ⟨-, hnone⟩
    · cases hw.symm.trans hw'
      exact ⟨⟨hserving.active, hserving.held, hserving.going⟩, haccounted.queued _⟩
    · cases hw.symm.trans hnone

theorem find?_activated {since : Nat} {join : Except ReceiverError Unit}
    (hact : r.activation u join = .activated) :
    (r.activate u since join).workers.find? u = some (Worker.start u r.timeout since) := by
  rw [activate, hact, Directory.find?_insert, if_pos rfl]

/-- From its activation on a worker is accounted for by an arbiter that has seen nothing. -/
theorem Tenure.fresh {since : Nat} {join : Except ReceiverError Unit}
    (hact : start.activation u join = .activated)
    (h : Tenure u (start.activate u since join) accepted log w r) :
    w.Serving ∧ w.Accounted (Arbiter.start u start.timeout since) accepted log := by
  refine h.accounted ?_
  intro w₀ hw₀
  rw [find?_activated hact] at hw₀
  cases hw₀
  exact ⟨⟨rfl, rfl, rfl⟩, Worker.accounted_start u start.timeout since⟩

/-! ## On the way out -/

/-- A worker that was taken out, and the rest of the roster. The worker acts on the sinks that it
shares with the rest, it is told to stop and let go of, and it is gone once it is done. Everything
else happens to the rest. -/
inductive Departure (w₀ : Worker) (rest₀ : Roster) : List Entry → Option Worker → Roster → Prop
  | start : Departure w₀ rest₀ [] (some w₀) rest₀
  | acts {log : List Entry} {w : Worker} {rest : Roster} {a : Delivery.Action} {p : Pipeline}
      {e : Entry} (h : Departure w₀ rest₀ log (some w) rest) (ha : a ∈ Pipeline.own)
      (hq : Pipeline.act? ⟨w, rest.outlet⟩ a = some p) (hd : w.Does e p.worker) :
      Departure w₀ rest₀ (log ++ [e]) (some p.worker) { rest with outlet := p.outlet }
  | told {log : List Entry} {w : Worker} {rest : Roster}
      (h : Departure w₀ rest₀ log (some w) rest) (hheld : w.isHeld = true)
      (hactive : w.isActive = true) : Departure w₀ rest₀ log (some w.deactivate) rest
  | letGo {log : List Entry} {w : Worker} {rest : Roster}
      (h : Departure w₀ rest₀ log (some w) rest) (hheld : w.isHeld = true)
      (hactive : w.isActive = false) : Departure w₀ rest₀ log (some w.release) rest
  | gone {log : List Entry} {w : Worker} {rest : Roster}
      (h : Departure w₀ rest₀ log (some w) rest) (hf : w.isFinished = true) :
      Departure w₀ rest₀ log none rest
  | goes {log : List Entry} {worker : Option Worker} {rest rest' : Roster}
      (h : Departure w₀ rest₀ log worker rest) (hg : Goes rest rest') :
      Departure w₀ rest₀ log worker rest'
  | enters {log : List Entry} {worker : Option Worker} {rest : Roster}
      (h : Departure w₀ rest₀ log worker rest) (s : Section) :
      Departure w₀ rest₀ log worker (rest.enter s)

/-- A roster taken apart into a worker on its way out, if it is still there, and the rest. -/
def Amidst (worker : Option Worker) (rest r : Roster) : Prop :=
  ∃ front back, rest.leaving = front ++ back ∧
    r = { rest with leaving := front ++ (worker.toList ++ back) }

variable {w₀ v : Worker} {rest₀ rest : Roster} {worker : Option Worker}

/-- An element of two rows in a line is in the second one or in the first. -/
theorem append_eq_append_cons {α : Type} {as bs cs ds : List α} {x : α}
    (h : as ++ bs = cs ++ x :: ds) :
    (∃ mid, cs = as ++ mid ∧ bs = mid ++ x :: ds) ∨
      ∃ mid, as = cs ++ x :: mid ∧ ds = mid ++ bs := by
  rcases List.append_eq_append_iff.1 h with ⟨mid, hcs, hbs⟩ | ⟨mid, has, hds⟩
  · exact .inl ⟨mid, hcs, hbs⟩
  · cases mid with
    | nil => exact .inl ⟨[], by simpa using has.symm, hds.symm⟩
    | cons z mid =>
      obtain ⟨rfl, rfl⟩ := List.cons.inj hds
      exact .inr ⟨mid, has, rfl⟩

/-- Where one of the workers on their way out changes or is gone, that is the one which is followed,
or the same happens to the rest. -/
theorem Amidst.change (ha : Amidst worker rest r) {front back : List Worker} {x : Worker}
    (hl : r.leaving = front ++ x :: back) (y : Option Worker) (o : Outlet) :
    (worker = some x ∧ Amidst y { rest with outlet := o }
        { r with leaving := front ++ (y.toList ++ back), outlet := o }) ∨
      ∃ f b, rest.leaving = f ++ x :: b ∧
        Amidst worker { rest with leaving := f ++ (y.toList ++ b), outlet := o }
          { r with leaving := front ++ (y.toList ++ back), outlet := o } := by
  obtain ⟨f, b, hrest, rfl⟩ := ha
  rcases append_eq_append_cons hl with ⟨mid, rfl, hmid⟩ | ⟨mid, rfl, rfl⟩
  · rcases append_eq_append_cons hmid with ⟨mid', rfl, rfl⟩ | ⟨mid', hworker, rfl⟩
    · exact .inr ⟨f ++ mid', back, by rw [hrest, List.append_assoc], f, mid' ++ (y.toList ++ back),
        by simp⟩
    · cases worker with
      | none => simp at hworker
      | some z =>
        obtain ⟨rfl, rfl, rfl⟩ : mid = [] ∧ x = z ∧ mid' = [] := by
          simpa [List.singleton_eq_append_iff] using hworker
        exact .inl ⟨rfl, f, b, hrest, by simp⟩
  · exact .inr ⟨front, mid ++ b, by simp [hrest], front ++ (y.toList ++ mid), b, by simp⟩

/-- Whatever happens to a roster of itself is part of the departure of the worker. -/
theorem Departure.going (h : Departure w₀ rest₀ log worker rest) (ha : Amidst worker rest r)
    (hg : Goes r r') :
    ∃ log worker rest, Departure w₀ rest₀ log worker rest ∧ Amidst worker rest r' := by
  have houtlet : r.outlet = rest.outlet := by
    obtain ⟨front, back, -, rfl⟩ := ha
    rfl
  rcases hg with hs | hp
  · cases hs with
    | active hv ho hq =>
      obtain ⟨front, back, hrest, rfl⟩ := ha
      exact ⟨_, _, _, h.goes (.inl (.active hv ho hq)), front, back, hrest, rfl⟩
    | packet hr =>
      obtain ⟨front, back, hrest, rfl⟩ := ha
      exact ⟨_, _, _, h.goes (.inl (.packet hr)), front, back, hrest, rfl⟩
    | report hr =>
      obtain ⟨front, back, hrest, rfl⟩ := ha
      exact ⟨_, _, _, h.goes (.inl (.report hr)), front, back, hrest, rfl⟩
    | @leaving _ _ _ _ p hl ho hq =>
      rw [houtlet] at hq
      rcases ha.change hl (some p.worker) p.outlet with ⟨rfl, ha'⟩ | ⟨f, b, hx, ha'⟩
      · obtain ⟨e, hd⟩ := Pipeline.does_act? ho hq
        exact ⟨_, _, _, h.acts ho hq hd, ha'⟩
      · exact ⟨_, _, _, h.goes (.inl (.leaving hx ho hq)), ha'⟩
    | gone hl hf =>
      rcases ha.change hl none r.outlet with ⟨rfl, ha'⟩ | ⟨f, b, hx, ha'⟩
      · exact ⟨_, _, _, h.gone hf, houtlet ▸ ha'⟩
      · exact ⟨_, _, _, h.goes (.inl (.gone hx hf)), houtlet ▸ ha'⟩
  · cases hp with
    | @tells _ _ w hl hheld hactive =>
      rcases ha.change hl (some w.deactivate) r.outlet with ⟨rfl, ha'⟩ | ⟨f, b, hx, ha'⟩
      · exact ⟨_, _, _, h.told hheld hactive, houtlet ▸ ha'⟩
      · exact ⟨_, _, _, h.goes (.inr (.tells hx hheld hactive)), houtlet ▸ ha'⟩
    | @letsGo _ _ w hl hheld hactive =>
      rcases ha.change hl (some w.release) r.outlet with ⟨rfl, ha'⟩ | ⟨f, b, hx, ha'⟩
      · exact ⟨_, _, _, h.letGo hheld hactive, houtlet ▸ ha'⟩
      · exact ⟨_, _, _, h.goes (.inr (.letsGo hx hheld hactive)), houtlet ▸ ha'⟩

theorem Amidst.enter (ha : Amidst worker rest r) (s : Section) :
    Amidst worker (rest.enter s) (r.enter s) := by
  obtain ⟨front, back, hrest, rfl⟩ := ha
  obtain ⟨more, hmore⟩ := enter_leaving rest s
  have hself : rest.enter s = { rest.enter s with leaving := rest.leaving ++ more } :=
    hmore rest.leaving
  refine ⟨front, back ++ more, ?_, ?_⟩
  · rw [hself, hrest, List.append_assoc]
  · rw [hmore, List.append_assoc, List.append_assoc]

/-- Whatever happens to a roster after a worker was taken out, it is the departure of that worker
and what happens to the rest. -/
theorem departure_of_course (h : Departure w₀ rest₀ log worker rest) (ha : Amidst worker rest r)
    {sections : List Section} {replies : List Reply}
    (course : registry.Course r sections replies r') :
    ∃ log worker rest, Departure w₀ rest₀ log worker rest ∧ Amidst worker rest r' := by
  refine course.keeps (P := fun r => ∃ log worker rest, Departure w₀ rest₀ log worker rest ∧
    Amidst worker rest r) ?_ ?_ ⟨log, worker, rest, h, ha⟩
  · rintro r r' ⟨log, worker, rest, h, ha⟩ hg
    exact h.going ha hg
  · rintro s - r ⟨log, worker, rest, h, ha⟩
    exact ⟨log, worker, _, h.enters s, ha.enter s⟩

/-- As long as a worker is not told to stop, it stays accounted for while it is on its way out. -/
theorem Departure.accounted {fresh : Arbiter} {before : List Entry}
    (hw₀ : w₀.Accounted fresh accepted before) (h : Departure w₀ rest₀ log worker rest) :
    ∀ v ∈ worker, v.isActive = true → v.Accounted fresh accepted (before ++ log) := by
  induction h with
  | start =>
    rintro v ⟨⟩ -
    rwa [List.append_nil]
  | acts _ _ _ hd ih =>
    rintro v ⟨⟩ hactive
    rw [hd.flags.1] at hactive
    rw [← List.append_assoc]
    exact (ih _ rfl hactive).does hd hactive
  | told =>
    rintro v ⟨⟩ hactive
    cases hactive
  | letGo _ _ hactive =>
    rintro v ⟨⟩ hactive'
    exact absurd (hactive'.symm.trans hactive) (by decide)
  | gone => rintro v ⟨⟩
  | goes _ _ ih => exact ih
  | enters _ _ ih => exact ih

/-- A worker on its way out is still in service, or it was told to stop at some point. -/
theorem Departure.told_or_serving (hw₀ : w₀.Serving) (h : Departure w₀ rest₀ log worker rest) :
    (∃ v, worker = some v ∧ v.Serving) ∨ ∃ before v middle after, v.Serving ∧
      Departure w₀ rest₀ before (some v) middle ∧
      Departure v.deactivate middle after worker rest := by
  induction h with
  | start => exact .inl ⟨w₀, rfl, hw₀⟩
  | acts _ ha hq hd ih =>
    rcases ih with ⟨v, ⟨⟩, hv⟩ | ⟨before, v, middle, after, hv, hfirst, hlast⟩
    · exact .inl ⟨_, rfl, hd.serving hv⟩
    · exact .inr ⟨before, v, middle, _, hv, hfirst, hlast.acts ha hq hd⟩
  | told h hheld hactive ih =>
    rcases ih with ⟨v, ⟨⟩, hv⟩ | ⟨before, v, middle, after, hv, hfirst, hlast⟩
    · exact .inr ⟨_, _, _, [], hv, h, .start⟩
    · exact .inr ⟨before, v, middle, after, hv, hfirst, hlast.told hheld hactive⟩
  | letGo _ hheld hactive ih =>
    rcases ih with ⟨v, ⟨⟩, hv⟩ | ⟨before, v, middle, after, hv, hfirst, hlast⟩
    · exact absurd (hv.active.symm.trans hactive) (by decide)
    · exact .inr ⟨before, v, middle, after, hv, hfirst, hlast.letGo hheld hactive⟩
  | gone _ hf ih =>
    rcases ih with ⟨v, ⟨⟩, hv⟩ | ⟨before, v, middle, after, hv, hfirst, hlast⟩
    · exact absurd (hv.going.symm.trans hf) (by decide)
    · exact .inr ⟨before, v, middle, after, hv, hfirst, hlast.gone hf⟩
  | goes _ hg ih =>
    refine ih.imp id ?_
    rintro ⟨before, v, middle, after, hv, hfirst, hlast⟩
    exact ⟨before, v, middle, after, hv, hfirst, hlast.goes hg⟩
  | enters _ s ih =>
    refine ih.imp id ?_
    rintro ⟨before, v, middle, after, hv, hfirst, hlast⟩
    exact ⟨before, v, middle, after, hv, hfirst, hlast.enters s⟩

/-! ## Told to stop -/

/-- What a worker that was told to stop did since then, and what it has still to do. -/
structure Winding (v : Worker) (log : List Entry) (worker : Option Worker) : Prop where
  told : ∀ w ∈ worker, w.isActive = false
  steps : v.committed = handledIn log ++ worker.elim [] Worker.committed
  items : v.outstanding = sentIn log ++ worker.elim [] Worker.outstanding
  acts : log.length + worker.elim 0 Worker.actsLeft ≤ v.actsLeft

theorem Departure.winding (hv : v.isActive = false) (h : Departure v rest₀ log worker rest) :
    Winding v log worker := by
  induction h with
  | start => exact ⟨fun w hw => Option.mem_some.1 hw ▸ hv, rfl, rfl, Nat.le_of_eq (Nat.zero_add _)⟩
  | @acts log w rest a p e _ _ _ hd ih =>
    have hw := ih.told w rfl
    refine ⟨?_, ?_, ?_, ?_⟩
    · rintro x ⟨⟩
      exact hd.flags.1.trans hw
    · rw [ih.steps, handledIn_append, handledIn_singleton, List.append_assoc]
      exact congrArg _ hd.committed
    · rw [ih.items, sentIn_append, sentIn_singleton, List.append_assoc]
      exact congrArg _ hd.outstanding
    · have hleft := hd.actsLeft hw
      have hacts := ih.acts
      simp only [Option.elim_some, List.length_append, List.length_singleton] at hacts ⊢
      omega
  -- A worker is told once, and this one was.
  | told _ _ hactive ih => exact absurd (hactive.symm.trans (ih.told _ rfl)) (by decide)
  | letGo _ _ hactive ih =>
    refine ⟨?_, ih.steps, ih.items, ih.acts⟩
    rintro x ⟨⟩
    exact hactive
  | @gone log w rest _ hf ih =>
    have hphase : w.phase = .finished := by simpa [Worker.isFinished] using hf
    have hcommitted : w.committed = [] := by rw [Worker.committed, hphase]
    refine ⟨?_, ?_, ?_, ?_⟩
    · rintro x ⟨⟩
    · rw [ih.steps]
      exact congrArg _ hcommitted
    · rw [ih.items]
      exact congrArg _ (Worker.outstanding_of_finished hf)
    · exact Nat.le_trans (Nat.le_add_right _ _) ih.acts
  | goes _ _ ih => exact ih
  | enters _ _ ih => exact ih

/-- What becomes of a worker that is told to stop. What it handles then is the step that it had
checked, if any; what it puts out is one item at most, and is what an arbiter of its own puts out
on the steps up to that one. It acts four times at most, and once it is let go of it is never at a
loss: it is done, or can act, or waits for room in a sink. When it is gone, it has handled the step
that it had checked, and everything is out. -/
structure Stopped (fresh : Arbiter) (before : List Entry) (v : Worker) (after : List Entry)
    (worker : Option Worker) (o : Outlet) : Prop where
  one : (sentIn after).length ≤ 1
  handled : handledIn after <+: v.checked
  sent : sentIn (before ++ after) <+: fresh.items (handledIn before ++ v.checked)
  brief : after.length ≤ 4
  going : ∀ w ∈ worker, w.isHeld = false → w.isFinished = true ∨
    (∃ a ∈ Pipeline.own, ∃ q, Pipeline.act? ⟨w, o⟩ a = some q) ∨
    ∃ i, w.item? = some i ∧ o.put? i = none ∧ o.handOver? i = none
  gone : worker = none → handledIn after = v.checked ∧
    sentIn (before ++ after) = fresh.items (handledIn before ++ v.checked)

/-- A worker that nobody holds any more is done, or can act, or waits for room in a sink. -/
theorem going_of_released {o : Outlet} (hheld : w.isHeld = false) : w.isFinished = true ∨
    (∃ a ∈ Pipeline.own, ∃ q, Pipeline.act? ⟨w, o⟩ a = some q) ∨
      ∃ i, w.item? = some i ∧ o.put? i = none ∧ o.handOver? i = none := by
  cases hm : w.move? with
  | some m => exact .inr (.inl ⟨.move, by decide, by simp [Pipeline.act?, Pipeline.move?, hm]⟩)
  | none =>
    cases hi : w.item? with
    | none => exact .inl (Worker.finished_of_released hheld hm hi)
    | some i =>
      cases hp : o.put? i with
      | some o' => exact .inr (.inl ⟨.put, by decide, by simp [Pipeline.act?, hi, hp]⟩)
      | none =>
        cases hh : o.handOver? i with
        | some o' => exact .inr (.inl ⟨.handOver, by decide, by simp [Pipeline.act?, hi, hh]⟩)
        | none => exact .inr (.inr ⟨i, rfl, hp, hh⟩)

theorem stopped_of_departure {fresh : Arbiter} {before after : List Entry}
    (hv : v.Accounted fresh accepted before)
    (h : Departure v.deactivate rest₀ after worker rest) :
    Stopped fresh before v after worker rest.outlet := by
  have hw := h.winding rfl
  have hchecked : v.deactivate.committed = v.checked := Worker.committed_of_told rfl
  have hsteps : v.checked = handledIn after ++ worker.elim [] Worker.committed := by
    rw [← hchecked, hw.steps]
  have hitems : fresh.items (handledIn before ++ v.checked) =
      sentIn (before ++ after) ++ worker.elim [] Worker.outstanding := by
    rw [Arbiter.items_append, hv.items, ← hv.knows, List.append_assoc, sentIn_append,
      List.append_assoc, ← hw.items, Worker.outstanding, hchecked]
    rfl
  refine ⟨?_, ?_, ?_, ?_, ?_, ?_⟩
  · have hone := Worker.outstanding_of_told (w := v.deactivate) rfl
    rw [hw.items, List.length_append] at hone
    omega
  · rw [hsteps]
    exact List.prefix_append _ _
  · rw [hitems]
    exact List.prefix_append _ _
  · have hbound := v.deactivate.actsLeft_le
    have hacts := hw.acts
    omega
  · exact fun w _ hheld => going_of_released hheld
  · rintro rfl
    rw [hitems, hsteps]
    exact ⟨(List.append_nil _).symm, (List.append_nil _).symm⟩

/-! ## The sinks -/

/-- Whatever happens to a roster of itself, nothing is taken back that went into the sinks. -/
theorem passed_goes (hf : r.outlet.Fits) (hg : Goes r r') :
    r'.outlet.Fits ∧ ∃ items, Outlet.Passed r.outlet r'.outlet items := by
  rcases hg with hs | hp
  · refine ⟨fits_stir hf hs, ?_⟩
    cases change_of_stir hs with
    | acts _ _ ha hq =>
      obtain ⟨e, hd⟩ := Pipeline.does_act? ha hq
      exact ⟨_, Pipeline.passed_act? hf ha hq hd⟩
    | leaves _ _ _ houtlet => exact ⟨[], houtlet ▸ .nil rfl rfl⟩
    | receives _ hr => exact ⟨[], by simp [hr.packets], by simp [hr.reports]⟩
  · cases hp with
    | tells => exact ⟨hf, [], .nil rfl rfl⟩
    | letsGo => exact ⟨hf, [], .nil rfl rfl⟩

/-- What the log of a worker on its way out says that it put out is in the sinks or was received, in
order, among what the rest put out. -/
theorem Departure.passed (hf : rest₀.outlet.Fits) (h : Departure w₀ rest₀ log worker rest) :
    rest.outlet.Fits ∧
      ∃ items, Outlet.Passed rest₀.outlet rest.outlet items ∧ (sentIn log).Sublist items := by
  induction h with
  | start => exact ⟨hf, [], .nil rfl rfl, .refl _⟩
  | acts _ ha hq hd ih =>
    obtain ⟨hfits, items, hpassed, hsublist⟩ := ih
    refine ⟨Pipeline.fits_act? hfits ha hq, _,
      hpassed.trans (Pipeline.passed_act? hfits ha hq hd), ?_⟩
    rw [sentIn_append, sentIn_singleton]
    exact hsublist.append (.refl _)
  | told _ _ _ ih => exact ih
  | letGo _ _ _ ih => exact ih
  | gone _ _ ih => exact ih
  | goes _ hg ih =>
    obtain ⟨hfits, items, hpassed, hsublist⟩ := ih
    obtain ⟨hfits', more, hmore⟩ := passed_goes hfits hg
    exact ⟨hfits', items ++ more, hpassed.trans hmore, hsublist.trans (List.sublist_append_left ..)⟩
  | enters _ s ih =>
    obtain ⟨hfits, items, hpassed, hsublist⟩ := ih
    obtain ⟨hpackets, hreports⟩ := sinks_enter _ s
    exact ⟨hfits.of_sinks hpackets hreports, items, ⟨hpackets ▸ hpassed.packets,
      hreports ▸ hpassed.reports⟩, hsublist⟩

/-! ## Deactivation -/

/-- The roster without the worker of a universe. -/
def without (r : Roster) (u : UniverseId) : Roster := { r with workers := r.workers.erase u }

/-- Where a worker is taken out, it is on its way out last. -/
theorem amidst_detach (hw : r.workers.find? u = some w) :
    Amidst (some w) (r.without u) (r.detach u) := by
  rw [detach, hw]
  exact ⟨r.leaving, [], (List.append_nil _).symm, rfl⟩

/-- A whole deactivation takes the worker out, tells it to stop and lets go of it. -/
theorem departure_deactivate (hs : w.Serving) (hw : r.workers.find? u = some w) :
    Departure w.deactivate (r.without u) [] (some w.deactivate.release) (r.without u) ∧
      Amidst (some w.deactivate.release) (r.without u) (r.deactivate u) := by
  constructor
  · exact .letGo .start hs.held rfl
  · rw [deactivate, hw]
    exact ⟨r.leaving, [], (List.append_nil _).symm, rfl⟩

/-- Once nothing happens any more, a worker that was taken out is gone. -/
theorem gone_of_settled (h : Departure w₀ rest₀ log worker rest) (ha : Amidst worker rest r)
    (hg : ReflTransGen Goes r r') (hs : Settled r') :
    ∃ log rest, Departure w₀ rest₀ log none rest ∧ Amidst none rest r' := by
  have hcourse : registry.Course r [] [] r' := .nil hg
  obtain ⟨log', worker', rest', h', ha'⟩ := departure_of_course h ha hcourse
  have hleaving := leaving_of_settled hs
  obtain ⟨front, back, -, hr⟩ := id ha'
  rw [hr, List.append_eq_nil_iff, List.append_eq_nil_iff, Option.toList_eq_nil_iff] at hleaving
  obtain rfl := hleaving.2.1
  exact ⟨log', rest', h', ha'⟩

theorem Tenure.timeout (h : Tenure u start accepted log w r) : r.timeout = start.timeout := by
  induction h with
  | start => rfl
  | acts _ _ _ _ ih => exact ih
  | goes _ hg _ ih => exact (timeout_goes hg).trans ih
  | enters _ s _ ih => exact (timeout_enter _ s).trans ih

/-- As long as a universe is active, its worker handles the steps that got into its queue, in order,
and puts out what an arbiter of its own puts out on them. When the worker is taken out to be told to
stop, whatever happens from then on, to it and to the rest, is part of its departure, be it told at
once or with others in between. From the moment at which it is told, at most one item of it goes
into the sinks, among those of others, and that comes of a step that it had checked before; of the
other steps it handles none. It acts four times at most, and unless it waits for room in a sink it
can act until it is done; when nothing happens any more it is gone. A universe that is activated
again, whether its old worker is gone or not, is served as one that never was active. -/
theorem output_stops_once_told {r₀ : Roster} {u : UniverseId} {since : Nat}
    {join : Except ReceiverError Unit} (hact : r₀.activation u join = .activated) :
    let fresh := Arbiter.start u r₀.timeout
    let begun := r₀.activate u since join
    (∀ sections replies r, registry.Course begun sections replies r →
      (∀ s ∈ sections, s.Spares u) → ∃ accepted log w, Tenure u begun accepted log w r) ∧
    ∀ accepted log w r, Tenure u begun accepted log w r →
      w.Accounted (fresh since) accepted log ∧
      (∀ sections replies r', registry.Course (r.detach u) sections replies r' →
        ∃ before v middle, Departure w (r.without u) before (some v) middle ∧ v.Serving ∧
          (Amidst (some v) middle r' ∨ ∃ after worker rest,
            Departure v.deactivate middle after worker rest ∧ Amidst worker rest r')) ∧
      (∀ sections replies r', registry.Course (r.deactivate u) sections replies r' →
        ∃ after worker rest, Departure w.deactivate (r.without u) after worker rest ∧
          Amidst worker rest r' ∧ Stopped (fresh since) log w after worker rest.outlet) ∧
      (∀ before v middle, Departure w (r.without u) before (some v) middle → v.Serving →
        v.Accounted (fresh since) accepted (log ++ before) ∧
        ∀ after worker rest, Departure v.deactivate middle after worker rest →
          Stopped (fresh since) (log ++ before) v after worker rest.outlet ∧
          (middle.outlet.Fits → ∃ items, Outlet.Passed middle.outlet rest.outlet items ∧
            (sentIn after).Sublist items) ∧
          ∀ r', Amidst worker rest r' → (∃ r'', ReflTransGen Goes r' r'' ∧ Settled r'') ∧
            ∀ r'', ReflTransGen Goes r' r'' → Settled r'' →
              ∃ after rest, Departure v.deactivate middle after none rest ∧
                Amidst none rest r'') ∧
      ∀ sections replies r' since' join', registry.Course (r.detach u) sections replies r' →
        r'.activation u join' = .activated →
        ∀ accepted' log' w' r'', Tenure u (r'.activate u since' join') accepted' log' w' r'' →
          w'.Accounted (fresh since') accepted' log' := by
  intro fresh begun
  refine ⟨?_, ?_⟩
  · intro sections replies r course hspared
    exact tenure_of_course (.start (find?_activated hact)) course hspared
  · intro accepted log w r tenure
    obtain ⟨hserving, haccounted⟩ := tenure.fresh hact
    have hw := tenure.find?
    refine ⟨haccounted, ?_, ?_, ?_, ?_⟩
    · intro sections replies r' course
      obtain ⟨log', worker, rest, hdeparture, ha⟩ :=
        departure_of_course .start (amidst_detach hw) course
      rcases hdeparture.told_or_serving hserving with ⟨v, rfl, hv⟩ |
        ⟨before, v, middle, after, hv, hfirst, hlast⟩
      · exact ⟨log', v, rest, hdeparture, hv, .inl ha⟩
      · exact ⟨before, v, middle, hfirst, hv, .inr ⟨after, worker, rest, hlast, ha⟩⟩
    · intro sections replies r' course
      obtain ⟨hreleased, hamidst⟩ := departure_deactivate hserving hw
      obtain ⟨after, worker, rest, hdeparture, ha⟩ :=
        departure_of_course hreleased hamidst course
      exact ⟨after, worker, rest, hdeparture, ha, stopped_of_departure haccounted hdeparture⟩
    · intro before v middle hfirst hv
      have hthen := hfirst.accounted haccounted v rfl hv.active
      refine ⟨hthen, ?_⟩
      intro after worker rest hlast
      refine ⟨stopped_of_departure hthen hlast, fun hf => (hlast.passed hf).2, ?_⟩
      intro r' ha
      exact ⟨@exists_end_of_decreasing _ Goes unrest (fun _ _ => unrest_goes) r',
        fun r'' hg hs => gone_of_settled hlast ha hg hs⟩
    · intro sections replies r' since' join' course hact' accepted' log' w' r'' tenure'
      have htimeout : r'.timeout = r₀.timeout := by
        rw [timeout_course course, ← timeout_enter r₀ (.activate u since join)]
        exact (timeout_enter r (.detach u)).trans tenure.timeout
      have haccounted' := (tenure'.fresh hact').2
      rwa [htimeout] at haccounted'

/-- A worker has checked its first step and has the second one queued when its universe is
deactivated. Before it is gone the first step is handled and its packet goes out, and nothing else;
and when the universe is activated again, its new worker has seen neither of them. -/
theorem output_stops_once_told_after_check :
    let packet : Packet := { universeId := 1, sequenceNumber := 1, slots := [42] }
    let first : Step := ⟨some packet, 5⟩
    let second : Step := ⟨some { packet with sequenceNumber := 2 }, 6⟩
    let begun := (Roster.start 10 1).activate 1 0 (.ok ())
    ∃ w r, Tenure 1 begun [first, second] [.nothing, .nothing] w r ∧
      w.queue = [second] ∧
      (∃ after rest, Departure w.deactivate (r.without 1) after none rest) ∧
      (∀ after rest, Departure w.deactivate (r.without 1) after none rest →
        handledIn after = [first] ∧ sentIn after = [.packet packet]) ∧
      ∀ accepted log w' r', Tenure 1 ((r.deactivate 1).activate 1 20 (.ok ())) accepted log w' r' →
        w'.Accounted (Arbiter.start 1 10 20) accepted log := by
  intro packet first second begun
  have hactivated : (Roster.start 10 1).activation 1 (.ok ()) = .activated := rfl
  have hbegun : Tenure 1 begun [] [] (Worker.start 1 10 0) begun := .start rfl
  have hqueued : Tenure 1 begun [first, second] []
      { Worker.start 1 10 0 with queue := [first, second] } _ :=
    (hbegun.enters (.dispatch first.packet 5) rfl).enters (.dispatch second.packet 6) rfl
  have hchecked := (hqueued.acts (a := .move) (by decide) rfl (.takes rfl rfl)).acts (a := .move)
    (by decide) rfl (.checks rfl rfl)
  obtain ⟨-, hall⟩ := @output_stops_once_told _ _ 0 _ hactivated
  obtain ⟨-, -, hdeactivated, hstopped, hagain⟩ := hall _ _ _ _ hchecked
  obtain ⟨-, hstopped⟩ := hstopped [] _ _ .start ⟨rfl, rfl, rfl⟩
  refine ⟨_, _, hchecked, rfl, ?_, ?_, ?_⟩
  · obtain ⟨_, _, _, hreleased, hamidst, -⟩ := hdeactivated [] [] _ (.nil .refl)
    obtain ⟨-, -, hgone⟩ := hstopped _ _ _ hreleased
    obtain ⟨⟨r'', hgoes, hsettled⟩, hend⟩ := hgone _ hamidst
    obtain ⟨after, rest, hdeparture, -⟩ := hend r'' hgoes hsettled
    exact ⟨after, rest, hdeparture⟩
  · intro after rest hdeparture
    obtain ⟨hhandled, hsent⟩ := (hstopped after none rest hdeparture).1.gone rfl
    exact ⟨hhandled, hsent.trans (by decide +kernel)⟩
  · intro accepted log w' r' tenure
    exact hagain [] [] _ 20 (.ok ()) (.nil (goes_detach rfl rfl rfl)) rfl accepted log w' r' tenure

end Roster

end StreamingAcn
