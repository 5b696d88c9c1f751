/-
StreamingAcn.Proofs.Delivery.Feeding — what a worker makes of the steps that it is fed.

Steps get into the queue of a worker one after the other. In between, and long after, the worker
moves, its items go into the sinks and the consumer receives, in any order that the sinks allow, and
at some point nobody may offer steps any more. The order has no part in what comes out: at any time
the sinks and the consumer have the first of the items that an arbiter puts out on these steps, and
once the worker has nothing left to do they have them all. On the packet sink this means that the
consumer sees the packets that change the data, whole and in order, and no others.

Definitions:

* `Fed`: the pipelines that feeding a worker of an active universe leads to;
* `Runs`: what holds of all of them.

Main statement: `consumer_sees_changes`.
-/
import StreamingAcn.Proofs.Arbitration.Changes
import StreamingAcn.Proofs.Delivery.Moves
import StreamingAcn.Proofs.Delivery.Settling

namespace StreamingAcn

open Delivery (Item Step)
open Relation (ReflTransGen)

namespace Arbitration.Arbiter

/-- The packets among the items of a run are those that it passes on. -/
theorem packets_items (a : Arbiter) (steps : List Step) :
    (a.items steps).filterMap Item.packet? = a.emitted steps := by
  induction steps generalizing a with
  | nil => rfl
  | cons s rest ih => rw [items_cons, List.filterMap_append, packets_item?, ih, emitted]

end Arbitration.Arbiter

namespace Delivery

open Arbitration (Arbiter)

namespace Pipeline

variable {a : Arbiter} {o : Outlet} {steps : List Step} {p q : Pipeline}

/-! ## Feeding -/

/-- The pipelines that feeding a worker leads to, with the steps that got into its queue. -/
inductive Fed (start : Pipeline) : List Step → Pipeline → Prop
  | start : Fed start [] start
  | queued {steps : List Step} {p : Pipeline} (h : Fed start steps p) (s : Step)
      (ha : p.worker.admission = .queued) : Fed start (steps ++ [s]) (p.offer s)
  | lost {steps : List Step} {p : Pipeline} (h : Fed start steps p) (s : Step)
      (ha : p.worker.admission ≠ .queued) : Fed start steps (p.offer s)
  | goes {steps : List Step} {p q : Pipeline} (h : Fed start steps p) (hg : Goes attended p q) :
      Fed start steps q
  | released {steps : List Step} {p : Pipeline} (h : Fed start steps p) :
      Fed start steps { p with worker := p.worker.release }

/-- What holds of every pipeline whose worker is fed steps and is never told to stop. -/
structure Runs (a : Arbiter) (o : Outlet) (steps : List Step) (p : Pipeline) : Prop where
  conveys : Conveys a o steps p
  active : p.worker.isActive = true
  done : p.worker.isFinished = true → p.worker.queue = []

theorem Runs.goes (h : Runs a o steps p) (hg : Goes attended p q) : Runs a o steps q := by
  obtain ⟨action, ha, hq⟩ := hg
  have hfits := h.conveys.fits
  rcases act?_attended_cases ha hq with hown | ⟨hw, hreceived⟩
  · obtain ⟨hactive, -, -, hdone⟩ := flags_act? hown hq
    have hdeed := deed_of_act? (Worker.keeps_of_active h.active) hfits hown hq
    exact ⟨h.conveys.deed (fits_act? hfits hown hq) hdeed, hactive.trans h.active, hdone⟩
  · refine ⟨h.conveys.carry (hreceived.fits hfits) hw hreceived.packets hreceived.reports, ?_, ?_⟩
    · rw [hw]
      exact h.active
    · rw [hw]
      exact h.done

theorem runs_fed {p₀ : Pipeline} (h₀ : Runs a o [] p₀) (h : Fed p₀ steps p) :
    Runs a o steps p := by
  induction h with
  | start => exact h₀
  | @queued steps p _ s hadm ih =>
    have hworker : p.worker.offer s = { p.worker with queue := p.worker.queue ++ [s] } := by
      rw [Worker.offer, if_pos hadm]
    obtain ⟨hpackets, hreports⟩ := p.outlet.sinks_offered p.worker s
    have hgoing : p.worker.isFinished = false := by
      by_contra hf
      rw [Bool.not_eq_false] at hf
      simp [Worker.admission, hf] at hadm
    refine ⟨ih.conveys.queued hworker hpackets hreports, ?_, ?_⟩
    · show (p.worker.offer s).isActive = true
      rw [hworker]
      exact ih.active
    · show (p.worker.offer s).isFinished = true → _
      rw [hworker]
      intro hf
      exact absurd (hgoing.symm.trans hf) (by decide)
  | @lost steps p _ s hadm ih =>
    have hworker : p.worker.offer s = p.worker := by rw [Worker.offer, if_neg hadm]
    obtain ⟨hpackets, hreports⟩ := p.outlet.sinks_offered p.worker s
    have hfits := ih.conveys.fits.of_sinks hpackets hreports
    refine ⟨ih.conveys.carry hfits hworker (congrArg _ hpackets) (congrArg _ hreports), ?_, ?_⟩
    · show (p.worker.offer s).isActive = true
      rw [hworker]
      exact ih.active
    · show (p.worker.offer s).isFinished = true → (p.worker.offer s).queue = []
      rw [hworker]
      exact ih.done
  | goes _ hg ih => exact ih.goes hg
  -- To let a worker go is a deed that does nothing to its steps.
  | released _ ih =>
    exact ⟨ih.conveys.deed ih.conveys.fits (.nothing rfl rfl rfl rfl), ih.active, ih.done⟩

theorem Fed.going {p₀ : Pipeline} (h : Fed p₀ steps p) (hg : ReflTransGen (Goes attended) p q) :
    Fed p₀ steps q := by
  induction hg with
  | refl => exact h
  | tail _ hg ih => exact ih.goes hg

/-- What a worker and its consumer do leaves the worker of an active universe in service. -/
theorem serving_going (hs : p.worker.Serving) (hf : p.outlet.Fits)
    (hg : ReflTransGen (Goes attended) p q) : q.worker.Serving ∧ q.outlet.Fits := by
  induction hg with
  | refl => exact ⟨hs, hf⟩
  | tail _ hg ih =>
    obtain ⟨hs', hf'⟩ := ih
    obtain ⟨action, ha, hq⟩ := hg
    rcases act?_attended_cases ha hq with hown | ⟨hw, hreceived⟩
    · obtain ⟨hserving, hfits, -⟩ := act?_due hs' hf' hown hq
      exact ⟨hserving, hfits⟩
    · exact ⟨hw ▸ hs', hreceived.fits hf'⟩

/-- A worker with a consumer can be fed any steps, however many. -/
theorem exists_fed {p₀ : Pipeline} (hs : p₀.worker.Serving) (hf : p₀.outlet.Fits)
    (steps : List Step) : ∃ p, Fed p₀ steps p ∧ p.worker.Serving ∧ p.outlet.Fits := by
  induction steps using List.reverseRecOn with
  | nil => exact ⟨p₀, .start, hs, hf⟩
  | append_singleton steps s ih =>
    obtain ⟨p, hfed, hserving, hfits⟩ := ih
    obtain ⟨hgoes, -, hmove, hitem⟩ := p.settle_spec
    obtain ⟨hserving', hfits'⟩ := serving_going hserving hfits hgoes
    obtain ⟨hphase, hqueue⟩ := Worker.rested hserving' hmove hitem
    obtain ⟨hadm, -⟩ := Worker.due_offer_of_rested hphase hqueue s
    obtain ⟨hpackets, hreports⟩ := p.settle.outlet.sinks_offered p.settle.worker s
    exact ⟨p.settle.offer s, (hfed.going hgoes).queued s hadm, Worker.serving_offer hserving' s,
      hfits'.of_sinks hpackets hreports⟩

/-! ## The packet sink -/

/-- A worker that was just started, with its sinks and a consumer behind them. -/
def fresh (u : UniverseId) (timeout now capacity : Nat) : Pipeline :=
  ⟨Worker.start u timeout now, Outlet.start capacity⟩

theorem fresh_fits (u : UniverseId) (timeout now capacity : Nat) :
    (fresh u timeout now capacity).outlet.Fits := ⟨Nat.zero_le _, Nat.zero_le _⟩

theorem runs_fresh (u : UniverseId) (timeout now capacity : Nat) :
    Runs (Arbiter.start u timeout now) (Outlet.start capacity) []
      (fresh u timeout now capacity) where
  conveys := ⟨fresh_fits u timeout now capacity, [], [], rfl, rfl, .nil rfl rfl, rfl⟩
  active := rfl
  done := fun h => by cases h

/-- The packets in the sink and before it are the first that the steps put out. -/
theorem flow_prefix {capacity : Nat} (h : Runs a (Outlet.start capacity) steps p) :
    p.outlet.packets.flow <+: a.emitted steps := by
  obtain ⟨handled, out, hsteps, hitems, hpassed, -⟩ := h.conveys.account
  have hflow : p.outlet.packets.flow = out.filterMap Item.packet? := hpassed.packets
  rw [← Arbiter.packets_items, hsteps, Arbiter.items_append, hitems, hflow, List.append_assoc,
    List.filterMap_append]
  exact List.prefix_append _ _

theorem flow_of_still {capacity : Nat} (h : Runs a (Outlet.start capacity) steps p)
    (hm : p.worker.move? = none) (hi : p.worker.item? = none) :
    p.outlet.packets.flow = a.emitted steps := by
  have hpending := Worker.pending_of_still h.done hm hi
  rw [← Arbiter.packets_items]
  exact (h.conveys.passed hpending hi).packets

end Pipeline

open Pipeline (Fed fresh)

/-- The slots that an arbiter passes on are those that it accepts, without the ones that repeat what
was accepted just before, no slots at all being before the first; and it knows the last slots of
either list. The consumer of a worker that is fed the steps of the run, in whatever order worker,
sinks and consumer get on with their work, finds the packets that are passed on, whole and in order,
and no others. -/
theorem consumer_sees_changes (u : UniverseId) (timeout start capacity : Nat)
    (steps : List Step) :
    let arbiter := Arbiter.start u timeout start
    let accepted := (arbiter.accepted steps).map fun x => x.1.slots
    let emitted := arbiter.emitted steps
    emitted.map Packet.slots = Arbitration.changesFrom [] accepted ∧
    (arbiter.after steps).lastSlots = accepted.getLast?.getD [] ∧
    (arbiter.after steps).lastSlots = (emitted.map Packet.slots).getLast?.getD [] ∧
    (∃ p, Fed (fresh u timeout start capacity) steps p) ∧
    ∀ p, Fed (fresh u timeout start capacity) steps p →
      p.outlet.packets.flow <+: emitted ∧
      (p.worker.move? = none → p.worker.item? = none → p.outlet.packets.flow = emitted) ∧
      p.settle.outlet.packets.received = emitted := by
  intro arbiter accepted emitted
  have hfits := Pipeline.fresh_fits u timeout start capacity
  obtain ⟨p₀, hp₀, -⟩ := Pipeline.exists_fed ⟨rfl, rfl, rfl⟩ hfits steps
  refine ⟨arbiter.slots_emitted steps, arbiter.lastSlots_after steps,
    arbiter.lastSlots_eq_last_emitted steps, ⟨p₀, hp₀⟩, ?_⟩
  intro p hfed
  have hruns := Pipeline.runs_fed (Pipeline.runs_fresh u timeout start capacity) hfed
  obtain ⟨hgoes, hdrained, hmove, hitem⟩ := p.settle_spec
  have hsettled :=
    Pipeline.runs_fed (Pipeline.runs_fresh u timeout start capacity) (hfed.going hgoes)
  refine ⟨Pipeline.flow_prefix hruns, Pipeline.flow_of_still hruns, ?_⟩
  have hflow : p.settle.outlet.packets.flow = emitted :=
    Pipeline.flow_of_still hsettled hmove hitem
  rw [← hflow, Sink.flow, hdrained.1, List.append_nil]

/-- Of three packets the second repeats the data of the first: the consumer receives the first and
the third, with everything that is in them. -/
theorem consumer_sees_changes_of_three :
    let packet (n : UInt8) (slots : Octets) (h : slots.length ≤ maxSlots) : Packet :=
      { universeId := 1, sourceName := "desk", sequenceNumber := n, slots := slots, slots_le := h }
    let first := packet 1 [1, 2, 3] (by decide)
    let third := packet 3 [4, 5, 6] (by decide)
    let steps : List Step :=
      [⟨some first, 10⟩, ⟨some (packet 2 [1, 2, 3] (by decide)), 20⟩, ⟨none, 25⟩, ⟨some third, 30⟩]
    ∃ p, Fed (fresh 1 2500 0 8) steps p ∧ p.settle.outlet.packets.received = [first, third] := by
  intro packet first third steps
  obtain ⟨-, -, -, ⟨p, hp⟩, hall⟩ := consumer_sees_changes 1 2500 0 8 steps
  have hemitted : (Arbiter.start 1 2500 0).emitted steps = [first, third] := by decide +kernel
  exact ⟨p, hp, (hall p hp).2.2.trans hemitted⟩

end Delivery

end StreamingAcn
