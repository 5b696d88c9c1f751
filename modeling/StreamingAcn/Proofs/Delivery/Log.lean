/-
StreamingAcn.Proofs.Delivery.Log — what a single worker has done.

Where several workers share the sinks, what is in the sinks does not tell whose it is. A log does:
it follows one worker and says of each of its acts whether a step was handled, an item went out, or
neither. Whatever else goes on around the worker, what it has in hand and what its arbiter knows can
be told from its log.

Definitions:

* `Entry`: what the log says of an act;
* `Worker.Does`: the acts of a worker, and where each of them leads;
* `Worker.Accounted`: what a worker took on and put out is accounted for by its log.

Main statements:

* `does_act?`: whatever a worker does itself is one of these acts;
* `passed_act?`: what an act puts into the sinks is what the log says of it;
* `Accounted.does`: a worker that was not told to stop stays accounted for.
-/
import StreamingAcn.Proofs.Delivery.Moves

namespace StreamingAcn.Delivery

open Arbitration (Arbiter)

/-- What the log of a worker says of an act. -/
inductive Entry
  | nothing
  | handled (step : Step)
  | sent (item : Item)
  deriving DecidableEq

namespace Entry

def handled? : Entry → Option Step
  | handled s => some s
  | nothing | sent _ => none

def sent? : Entry → Option Item
  | sent i => some i
  | nothing | handled _ => none

end Entry

/-- The steps that were handled, oldest first. -/
def handledIn (log : List Entry) : List Step := log.filterMap Entry.handled?

/-- The items that went out, oldest first. -/
def sentIn (log : List Entry) : List Item := log.filterMap Entry.sent?

@[simp] theorem handledIn_append (xs ys : List Entry) :
    handledIn (xs ++ ys) = handledIn xs ++ handledIn ys := List.filterMap_append ..

@[simp] theorem sentIn_append (xs ys : List Entry) :
    sentIn (xs ++ ys) = sentIn xs ++ sentIn ys := List.filterMap_append ..

@[simp] theorem handledIn_singleton (e : Entry) : handledIn [e] = e.handled?.toList := by
  cases e <;> rfl

@[simp] theorem sentIn_singleton (e : Entry) : sentIn [e] = e.sent?.toList := by
  cases e <;> rfl

namespace Worker

variable {w v : Worker} {e : Entry}

/-- The acts of a worker: what the log says of each, and the worker after it. -/
inductive Does (w : Worker) : Entry → Worker → Prop
  | takes {s : Step} {rest : List Step} (hp : w.phase = .waiting) (hq : w.queue = s :: rest) :
      Does w .nothing { w with queue := rest, phase := .taken s }
  | ends (hp : w.phase = .waiting) (hq : w.queue = []) (hheld : w.isHeld = false) :
      Does w .nothing { w with phase := .finished }
  /-- It looks whether its universe is still active, and it is. -/
  | checks {s : Step} (hp : w.phase = .taken s) (hactive : w.isActive = true) :
      Does w .nothing { w with phase := .cleared s }
  /-- It looks whether its universe is still active, and it is not. -/
  | discards {s : Step} (hp : w.phase = .taken s) (hactive : w.isActive = false) :
      Does w .nothing { w with queue := [], phase := .finished }
  | handles {s : Step} (hp : w.phase = .cleared s) : Does w (.handled s) (w.handle s).1
  | sends {i : Item} (hp : w.phase = .sending i) : Does w (.sent i) w.sent

theorem phase_of_item? {i : Item} (h : w.item? = some i) : w.phase = .sending i := by
  unfold item? at h
  split at h
  · next hp => rw [hp, Option.some.inj h]
  · cases h

/-- No act changes whether a worker is active or held. -/
theorem Does.flags (h : w.Does e v) : v.isActive = w.isActive ∧ v.isHeld = w.isHeld := by
  cases h <;> exact ⟨rfl, rfl⟩

theorem Does.serving (h : w.Does e v) (hs : w.Serving) : v.Serving := by
  obtain ⟨hactive, hheld⟩ := h.flags
  refine ⟨hactive.trans hs.active, hheld.trans hs.held, ?_⟩
  cases h with
  | takes | checks | sends => rfl
  | ends _ _ hreleased => exact absurd (hs.held.symm.trans hreleased) (by decide)
  | discards _ hinactive => exact absurd (hs.active.symm.trans hinactive) (by decide)
  | handles => exact w.going_handle _

/-- A worker that was not told to stop loses no step but the one that it handles. -/
theorem Does.pending (h : w.Does e v) (hactive : w.isActive = true) :
    w.pending = e.handled?.toList ++ v.pending := by
  cases h with
  | takes hp hq => simp [Worker.pending, Entry.handled?, hp, hq]
  | ends hp => simp [Worker.pending, Entry.handled?, hp]
  | checks hp => simp [Worker.pending, Entry.handled?, hp]
  | discards _ hinactive => exact absurd (hactive.symm.trans hinactive) (by decide)
  | handles hp =>
    rw [(w.handle_spec _).1]
    simp [Worker.pending, Entry.handled?, hp]
  | sends hp => simp [Worker.pending, Entry.handled?, Worker.sent, hp]

/-- What a worker has in hand, and what comes of the step that it handles, goes out or is in its
hand afterwards. -/
theorem Does.items (h : w.Does e v) :
    w.item?.toList ++ w.arbiter.items e.handled?.toList = e.sent?.toList ++ v.item?.toList ∧
      v.arbiter = w.arbiter.after e.handled?.toList := by
  cases h with
  | takes hp => simp [Entry.handled?, Entry.sent?, item?, hp]
  | ends hp => simp [Entry.handled?, Entry.sent?, item?, hp]
  | checks hp => simp [Entry.handled?, Entry.sent?, item?, hp]
  | discards hp => simp [Entry.handled?, Entry.sent?, item?, hp]
  | @handles s hp =>
    obtain ⟨-, hitem, harbiter, -⟩ := w.handle_spec s
    rw [hitem, harbiter, item?, hp]
    simp [Entry.handled?, Entry.sent?, Arbiter.items_cons]
  | sends hp => simp [Entry.handled?, Entry.sent?, item?, sent, hp]

/-! ## Accounts -/

/-- The steps that a worker took on are those that it handled and those that it has still to handle,
and what an arbiter of its own puts out on the handled ones is what the worker put out, and the item
that it has in hand. -/
structure Accounted (w : Worker) (fresh : Arbiter) (accepted : List Step) (log : List Entry) :
    Prop where
  steps : accepted = handledIn log ++ w.pending
  items : fresh.items (handledIn log) = sentIn log ++ w.item?.toList
  knows : w.arbiter = fresh.after (handledIn log)

variable {fresh : Arbiter} {accepted : List Step} {log : List Entry}

theorem accounted_start (u : UniverseId) (timeout now : Nat) :
    (Worker.start u timeout now).Accounted (Arbiter.start u timeout now) [] [] := ⟨rfl, rfl, rfl⟩

theorem Accounted.does (h : w.Accounted fresh accepted log) (hd : w.Does e v)
    (hactive : w.isActive = true) : v.Accounted fresh accepted (log ++ [e]) := by
  obtain ⟨hitems, harbiter⟩ := hd.items
  constructor
  · rw [h.steps, hd.pending hactive, handledIn_append, handledIn_singleton, List.append_assoc]
  · rw [handledIn_append, handledIn_singleton, Arbiter.items_append, h.items, ← h.knows,
      List.append_assoc, hitems, sentIn_append, sentIn_singleton, List.append_assoc]
  · rw [harbiter, h.knows, handledIn_append, handledIn_singleton, Arbiter.after_append]

/-- A step that is offered gets into the queue or is lost. -/
theorem offer_eq (w : Worker) (s : Step) :
    w.offer s = { w with queue := w.queue ++ if w.admission = .queued then [s] else [] } := by
  unfold offer
  split <;> simp

/-- A worker that was not told to stop takes on the steps that get into its queue. -/
theorem Accounted.queued (h : w.Accounted fresh accepted log) (steps : List Step) :
    Accounted { w with queue := w.queue ++ steps } fresh (accepted ++ steps) log := by
  refine ⟨?_, h.items, h.knows⟩
  rw [h.steps, List.append_assoc]
  congr 1
  cases hp : w.phase <;> simp [Worker.pending, hp]

end Worker

namespace Pipeline

variable {p q : Pipeline} {a : Action}

/-- Whatever a worker does itself is one of its acts. -/
theorem does_act? (ha : a ∈ own) (h : p.act? a = some q) : ∃ e, p.worker.Does e q.worker := by
  rcases outlet_act? ha h with ⟨verdict, hm, -⟩ | ⟨i, hi, hw, -⟩
  · rcases Worker.move?_cases hm with ⟨s, rest, hp, hq, hv, -⟩ | ⟨hp, hq, hheld, hv, -⟩ |
      ⟨s, hp, hactive, hv, -⟩ | ⟨s, hp, hactive, hv, -⟩ | ⟨s, hp, hv, -⟩
    · exact ⟨.nothing, hv ▸ .takes hp hq⟩
    · exact ⟨.nothing, hv ▸ .ends hp hq hheld⟩
    · exact ⟨.nothing, hv ▸ .checks hp hactive⟩
    · exact ⟨.nothing, hv ▸ .discards hp hactive⟩
    · exact ⟨.handled s, hv ▸ .handles hp⟩
  · exact ⟨.sent i, hw ▸ .sends (Worker.phase_of_item? hi)⟩

/-- What an act puts into the sinks is what the log says of it. -/
theorem passed_act? {e : Entry} (hf : p.outlet.Fits) (ha : a ∈ own) (h : p.act? a = some q)
    (hd : p.worker.Does e q.worker) : Outlet.Passed p.outlet q.outlet e.sent?.toList := by
  rcases act?_own_cases ha h with ⟨verdict, hm, hpackets, hreports⟩ | ⟨i, hi, -, ho⟩
  · have hsent : e.sent? = none := by
      generalize q.worker = v at hd hm
      cases hd with
      | takes | ends | checks | discards | handles => rfl
      | sends hp => simp [Worker.move?, hp] at hm
    rw [hsent]
    exact .nil hpackets hreports
  · have hsent : e.sent? = some i := by
      have hphase := Worker.phase_of_item? hi
      generalize q.worker = v at hd
      cases hd with
      | takes hp | ends hp | checks hp | discards hp | handles hp =>
        rw [hphase] at hp
        cases hp
      | sends hp =>
        rw [hphase] at hp
        cases hp
        rfl
    rw [hsent]
    rcases ho with ho | ho
    · exact Outlet.passed_put? ho
    · exact Outlet.passed_handOver? hf ho

end Pipeline

end StreamingAcn.Delivery
