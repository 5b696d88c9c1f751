/-
StreamingAcn.Delivery.Worker — the worker of one universe.

A worker takes steps from its own queue in order, has its arbiter judge them, and puts out an item
for some of them. Its moves are kept apart as finely as others can get between them: taking a
step, looking whether the universe is still active, handling the step, and getting rid of the item
are four moves, and others may add steps or deactivate the universe between any two of them.

Definitions:

* `Worker.offer`: what happens to a step that is offered to the worker;
* `Worker.deactivate`, `Worker.release`: the two ways to be done with a worker;
* `Worker.move?`: the next move that the worker can make by itself.
-/
import StreamingAcn.Delivery.Item

namespace StreamingAcn.Delivery

open Arbitration (Arbiter Verdict)

/-- How many steps a worker's queue holds. -/
def queueCapacity : Nat := 256

inductive Phase
  | waiting
  | taken (step : Step)
  /-- It has seen that the universe is active and is about to handle the step. -/
  | cleared (step : Step)
  /-- It has handled a step and offers its item to a sink. -/
  | sending (item : Item)
  /-- It is done and lets go of its sinks. -/
  | finished
  deriving DecidableEq

structure Worker where
  arbiter : Arbiter
  /-- The steps still to be taken, oldest first. -/
  queue : List Step
  phase : Phase
  isActive : Bool
  /-- Whether somebody can still offer steps. -/
  isHeld : Bool
  deriving DecidableEq

/-- What happens to a step that is offered to a worker. -/
inductive Admission
  | queued
  /-- The queue is full, and the step is lost. -/
  | full
  /-- The worker is done, and the step is lost. -/
  | gone
  deriving DecidableEq

namespace Worker

def start (universeId : UniverseId) (timeout now : Nat) : Worker where
  arbiter := Arbiter.start universeId timeout now
  queue := []
  phase := .waiting
  isActive := true
  isHeld := true

def universeId (w : Worker) : UniverseId := w.arbiter.universeId

def isFinished (w : Worker) : Bool := w.phase = .finished

def admission (w : Worker) : Admission :=
  if w.isFinished then .gone
  else if w.queue.length < queueCapacity then .queued
  else .full

/-- The worker after a step was offered to it. Offering never waits. -/
def offer (w : Worker) (step : Step) : Worker :=
  if w.admission = .queued then { w with queue := w.queue ++ [step] } else w

/-- The worker of a universe that is no longer active. It will discard what it has queued. -/
def deactivate (w : Worker) : Worker := { w with isActive := false }

/-- The worker when nobody will offer it steps any more. It still handles what it has queued. -/
def release (w : Worker) : Worker := { w with isHeld := false }

def sent (w : Worker) : Worker := { w with phase := .waiting }

/-- The item that the worker wants to get rid of. -/
def item? (w : Worker) : Option Item :=
  match w.phase with
  | .sending item => some item
  | _ => none

def handle (w : Worker) (step : Step) : Worker × Verdict :=
  let (verdict, arbiter) := w.arbiter.handle step.packet step.time
  let phase := match Item.ofVerdict? w.universeId step verdict with
    | some item => .sending item
    | none => .waiting
  ({ w with arbiter := arbiter, phase := phase }, verdict)

/--
The next move that the worker can make by itself, with the verdict if it handles a step. There is
none while it waits for a step or for room in a sink, and none after it is done.
-/
def move? (w : Worker) : Option (Worker × Option Verdict) :=
  match w.phase with
  | .waiting =>
    match w.queue with
    | step :: rest => some ({ w with queue := rest, phase := .taken step }, none)
    | [] => if w.isHeld then none else some ({ w with phase := .finished }, none)
  | .taken step =>
    if w.isActive then some ({ w with phase := .cleared step }, none)
    else some ({ w with queue := [], phase := .finished }, none)
  | .cleared step =>
    let (next, verdict) := w.handle step
    some (next, some verdict)
  | .sending _ => none
  | .finished => none

/-- A bound on the moves of a worker that is offered nothing more, its sends included. -/
def effort (w : Worker) : Nat :=
  5 * w.queue.length + match w.phase with
    | .waiting => 1
    | .taken _ => 5
    | .cleared _ => 4
    | .sending _ => 3
    | .finished => 0

theorem effort_move? {w v : Worker} {verdict : Option Verdict} (h : w.move? = some (v, verdict)) :
    v.effort < w.effort := by
  unfold move? at h
  split at h
  · next hp =>
    split at h
    · next hq =>
      simp only [Option.some.injEq, Prod.mk.injEq] at h
      simp only [← h.1, effort, hp, hq, List.length_cons]
      omega
    · split at h
      · simp at h
      · simp only [Option.some.injEq, Prod.mk.injEq] at h
        simp only [← h.1, effort, hp]
        omega
  · next hp =>
    split at h <;> simp only [Option.some.injEq, Prod.mk.injEq] at h <;>
      simp only [← h.1, effort, hp, List.length_nil] <;> omega
  · next step hp =>
    simp only [handle, Option.some.injEq, Prod.mk.injEq] at h
    simp only [← h.1, effort, hp]
    cases Item.ofVerdict? w.universeId step (w.arbiter.handle step.packet step.time).1 <;>
      simp only <;> omega
  · simp at h
  · simp at h

end Worker

end StreamingAcn.Delivery
