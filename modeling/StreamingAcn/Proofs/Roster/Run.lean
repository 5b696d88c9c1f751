/-
StreamingAcn.Proofs.Roster.Run — a roster that comes to rest after every call.

Calls come from outside and answer at once. What follows from them, the moves of the workers and
what their consumer receives, happens in any order, one stir at a time, until nothing more can
happen. A run is a row of calls, each followed by stirs up to rest.

Definitions:

* `Event`, `Called`: a call with its answer, and the roster after it;
* `Stir`, `AtRest`: what happens between the calls, and when it is over;
* `Run`: the rosters that calls can lead to.

Main statement: `atRest_iff`, a roster rests when nothing is in its sinks and its workers have
nothing to do.
-/
import StreamingAcn.Proofs.Delivery.Settling
import StreamingAcn.Proofs.Roster.Visiting

namespace StreamingAcn

open Delivery (Outlet Pipeline Step Worker)
open Relation (ReflTransGen)

/-- Whether a worker neither has a next move nor an item to get rid of. -/
def Delivery.Worker.Stuck (w : Worker) : Prop := w.move? = none ∧ w.item? = none

theorem Delivery.Pipeline.act?_of_stuck {p : Pipeline} (h : p.worker.Stuck) :
    ∀ a ∈ Pipeline.own, p.act? a = none := by
  intro a ha
  cases hq : p.act? a with
  | none => rfl
  | some q =>
    rcases Pipeline.act?_own_cases ha hq with ⟨verdict, hm, -⟩ | ⟨i, hi, -⟩
    · rw [h.1] at hm
      cases hm
    · rw [h.2] at hi
      cases hi

namespace Roster

/-! ## Calls -/

/-- A call of a roster with what it answered. -/
inductive Event
  | activate (u : UniverseId) (now : Nat) (answer : Except ReceiverError Bool)
  | deactivate (u : UniverseId) (answer : Bool)
  | dispatch (packet : Option Packet) (now : Nat) (answer : Bool)
  | shutdown

/-- What a call does. The workers may be visited in any order when a step is dispatched. -/
inductive Called (r : Roster) : Event → Roster → Prop
  | activate (u : UniverseId) (now : Nat) (join : Except ReceiverError Unit) :
      Called r (.activate u now (r.activation u join).result) (r.activate u now join)
  | deactivate (u : UniverseId) : Called r (.deactivate u (r.isActive u)) (r.deactivate u)
  | dispatch (packet : Option Packet) (now : Nat) (order : List UniverseId)
      (h : order.Perm r.active) :
      Called r (.dispatch packet now (packet.isSome && (r.visit order packet now).1.isNone))
        (r.visit order packet now).2
  | shutdown : Called r .shutdown r.shutdown

/-! ## Between the calls -/

/-- Something that happens by itself: a worker acts, a worker is done, or the consumer receives. -/
inductive Stir (r : Roster) : Roster → Prop
  | active {u : UniverseId} {w : Worker} {a : Delivery.Action} {p : Pipeline}
      (hw : r.workers.find? u = some w) (ha : a ∈ Pipeline.own)
      (h : Pipeline.act? ⟨w, r.outlet⟩ a = some p) :
      Stir r { r with workers := r.workers.insert u p.worker, outlet := p.outlet }
  | leaving {front back : List Worker} {w : Worker} {a : Delivery.Action} {p : Pipeline}
      (hl : r.leaving = front ++ w :: back) (ha : a ∈ Pipeline.own)
      (h : Pipeline.act? ⟨w, r.outlet⟩ a = some p) :
      Stir r { r with leaving := front ++ p.worker :: back, outlet := p.outlet }
  | gone {front back : List Worker} {w : Worker} (hl : r.leaving = front ++ w :: back)
      (hf : w.isFinished = true) : Stir r { r with leaving := front ++ back }
  | packet {s : Delivery.Sink Packet} (h : r.outlet.packets.receive? = some s) :
      Stir r { r with outlet := { r.outlet with packets := s } }
  | report {s : Delivery.Sink Delivery.Report} (h : r.outlet.reports.receive? = some s) :
      Stir r { r with outlet := { r.outlet with reports := s } }

/-- Whether nothing happens by itself. -/
def AtRest (r : Roster) : Prop := ∀ r', ¬ Stir r r'

/-- A roster rests when nothing is in its sinks and its workers have nothing to do. -/
theorem atRest_iff {r : Roster} : r.AtRest ↔ r.outlet.Drained ∧
    (∀ u w, r.workers.find? u = some w → w.Stuck) ∧
    ∀ w ∈ r.leaving, w.Stuck ∧ w.isFinished = false := by
  constructor
  · intro h
    have hpackets : r.outlet.packets.receive? = none := by
      cases hs : r.outlet.packets.receive? with
      | none => rfl
      | some s => exact absurd (Stir.packet hs) (h _)
    have hreports : r.outlet.reports.receive? = none := by
      cases hs : r.outlet.reports.receive? with
      | none => rfl
      | some s => exact absurd (Stir.report hs) (h _)
    have hdrained : r.outlet.Drained :=
      ⟨Delivery.Sink.held_of_receive?_none hpackets, Delivery.Sink.held_of_receive?_none hreports⟩
    refine ⟨hdrained, ?_, ?_⟩
    · intro u w hw
      refine Pipeline.stuck_of_drained (p := ⟨w, r.outlet⟩) hdrained ?_
      intro a ha
      cases hq : Pipeline.act? ⟨w, r.outlet⟩ a with
      | none => rfl
      | some q => exact absurd (Stir.active hw ha hq) (h _)
    · intro w hw
      obtain ⟨front, back, hl⟩ := List.append_of_mem hw
      constructor
      · refine Pipeline.stuck_of_drained (p := ⟨w, r.outlet⟩) hdrained ?_
        intro a ha
        cases hq : Pipeline.act? ⟨w, r.outlet⟩ a with
        | none => rfl
        | some q => exact absurd (Stir.leaving hl ha hq) (h _)
      · cases hf : w.isFinished with
        | false => rfl
        | true => exact absurd (Stir.gone hl hf) (h _)
  · rintro ⟨hdrained, hactive, hleaving⟩ r' hr
    cases hr with
    | @active u w a p hw ha h =>
      rw [Pipeline.act?_of_stuck (hactive u w hw) a ha] at h
      cases h
    | @leaving front back w a p hl ha h =>
      have hw : w ∈ r.leaving := by simp [hl]
      rw [Pipeline.act?_of_stuck (hleaving w hw).1 a ha] at h
      cases h
    | @gone front back w hl hf =>
      have hw : w ∈ r.leaving := by simp [hl]
      rw [(hleaving w hw).2] at hf
      cases hf
    | packet h => simp [Delivery.Sink.receive?, hdrained.1] at h
    | report h => simp [Delivery.Sink.receive?, hdrained.2] at h

/-- The rosters that calls lead to, each call followed by stirs up to rest. -/
inductive Run (start : Roster) : List Event → Roster → Prop
  | nil : Run start [] start
  | call {log : List Event} {e : Event} {r r' r'' : Roster} (h : Run start log r)
      (hc : Called r e r') (hs : ReflTransGen Stir r' r'') (hr : r''.AtRest) :
      Run start (log ++ [e]) r''

theorem atRest_start (timeout capacity : Nat) : (Roster.start timeout capacity).AtRest := by
  rw [atRest_iff]
  refine ⟨⟨rfl, rfl⟩, ?_, ?_⟩
  · intro u w hw
    cases hw
  · intro w hw
    cases hw

theorem Run.atRest {start r : Roster} {log : List Event} (h0 : start.AtRest)
    (h : Run start log r) : r.AtRest := by
  cases h with
  | nil => exact h0
  | call _ _ _ hr => exact hr

/-! ## Calls and sinks -/

theorem outlet_activate {r : Roster} (u : UniverseId) (now : Nat)
    (join : Except ReceiverError Unit) : (r.activate u now join).outlet = r.outlet := by
  unfold activate
  split <;> rfl

theorem outlet_deactivate {r : Roster} (u : UniverseId) :
    (r.deactivate u).outlet = r.outlet := by
  unfold deactivate
  split <;> rfl

theorem outlet_shutdown {r : Roster} : r.shutdown.outlet = r.outlet := by
  unfold shutdown
  split <;> rfl

theorem sinks_dispatch (r : Roster) (packet : Option Packet) (now : Nat) :
    (r.dispatch packet now).outlet.packets = r.outlet.packets ∧
      (r.dispatch packet now).outlet.reports = r.outlet.reports := by
  rw [dispatch]
  generalize r.outlet = o
  induction r.workers.entries generalizing o with
  | nil => exact ⟨rfl, rfl⟩
  | cons e rest ih =>
    obtain ⟨hp, hr⟩ := Outlet.sinks_offered o e.2 (stepFor packet now e.1)
    obtain ⟨ihp, ihr⟩ := ih (o.offered e.2 (stepFor packet now e.1))
    exact ⟨ihp.trans hp, ihr.trans hr⟩

/-- A call leaves the sinks as they are. -/
theorem Called.sinks {r r' : Roster} {e : Event} (h : Called r e r') :
    r'.outlet.packets = r.outlet.packets ∧ r'.outlet.reports = r.outlet.reports := by
  cases h with
  | activate u now join =>
    rw [outlet_activate]
    exact ⟨rfl, rfl⟩
  | deactivate u =>
    rw [outlet_deactivate]
    exact ⟨rfl, rfl⟩
  | dispatch packet now order h =>
    rw [visit_eq_dispatch h]
    exact sinks_dispatch r packet now
  | shutdown =>
    rw [outlet_shutdown]
    exact ⟨rfl, rfl⟩

end Roster

end StreamingAcn
