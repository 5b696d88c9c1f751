/-
StreamingAcn.Roster — the active universes and their workers.

The roster has one worker for every active universe. A step that comes in goes to every worker:
the worker of the packet's universe is offered the packet, all others are offered word that nothing
came. Workers of universes that are no longer active leave on their own; a closed roster has no
active universe and never has one again.

Definitions:

* `Roster.request`: what comes of a request to activate a universe, with the action that joins its
  group;
* `Roster.activate`, `Roster.deactivate`, `Roster.shutdown`: which universes are active;
* `Roster.dispatch`: a step for every active universe;
* `Roster.settle`, `Roster.press`: the roster once its workers have come to rest, with a consumer
  that receives whatever it can and without one.
-/
import StreamingAcn.Delivery.Pipeline
import StreamingAcn.Directory
import StreamingAcn.ReceiverError

namespace StreamingAcn

open Delivery (Outlet Pipeline Step Worker)

structure Roster where
  /-- How long a source, a credit or a universe lasts without a packet. -/
  timeout : Nat
  workers : Directory UniverseId Worker
  /-- The workers of universes that were active and whose workers are not done yet. -/
  leaving : List Worker
  outlet : Outlet
  isClosed : Bool

/-- What comes of a request to activate a universe. -/
inductive Activation
  /-- The request is refused before anything is tried. -/
  | refused (error : ReceiverError)
  | alreadyActive
  | joinFailed (error : ReceiverError)
  | activated
  deriving DecidableEq

namespace Activation

/-- Whether the universe was activated, or why the request failed. -/
def result : Activation → Except ReceiverError Bool
  | .refused error => .error error
  | .alreadyActive => .ok false
  | .joinFailed error => .error error
  | .activated => .ok true

/-- What comes of a request that has nothing in its way, where the group was joined or was not. -/
def ofJoin : Except ReceiverError Unit → Activation
  | .error e => .joinFailed e
  | .ok () => .activated

end Activation

namespace Roster

def start (timeout sinkCapacity : Nat) : Roster where
  timeout := timeout
  workers := Directory.empty
  leaving := []
  outlet := Outlet.start sinkCapacity
  isClosed := false

/-- The active universes, lowest first. -/
def active (r : Roster) : List UniverseId := r.workers.keys

def isActive (r : Roster) (u : UniverseId) : Bool := r.workers.contains u

def counters (r : Roster) : Counters := r.outlet.counters

def count (r : Roster) (f : Counters → Counters) : Roster :=
  { r with outlet := { r.outlet with counters := f r.outlet.counters } }

/-! ## Activation -/

/-- What is in the way of a request to activate a universe before its group is joined. -/
def obstacle? (r : Roster) (u : UniverseId) : Option Activation :=
  match UniverseId.check u with
  | .error e => some (.refused e)
  | .ok () =>
    if r.isClosed then some (.refused .closed)
    else if r.isActive u then some .alreadyActive
    else none

/--
A request to activate a universe, where `join` is the action that joins its group. The action is
taken only if nothing is in the way, and it is the only thing that can then still fail.
-/
def request {m : Type → Type} [Monad m] (r : Roster) (u : UniverseId)
    (join : m (Except ReceiverError Unit)) : m Activation :=
  match r.obstacle? u with
  | some outcome => pure outcome
  | none => Activation.ofJoin <$> join

/-- What comes of a request to activate a universe, where `join` is what joining its group gives. -/
def activation (r : Roster) (u : UniverseId) (join : Except ReceiverError Unit) : Activation :=
  Id.run (r.request u (pure join))

theorem activation_eq (r : Roster) (u : UniverseId) (join : Except ReceiverError Unit) :
    r.activation u join = (r.obstacle? u).getD (.ofJoin join) := by
  unfold activation request
  split
  · next h => rw [h]; rfl
  · next h => rw [h]; rfl

/-- Joining a group as an action that counts how often it is taken. -/
def counted (join : Except ReceiverError Unit) : StateM Nat (Except ReceiverError Unit) :=
  fun joins => (join, joins + 1)

/-- Counting the joins does not change what comes of a request. -/
theorem run_request_counted (r : Roster) (u : UniverseId) (join : Except ReceiverError Unit)
    (joins : Nat) : (r.request u (counted join)).run joins =
      (r.activation u join, if (r.obstacle? u).isNone then joins + 1 else joins) := by
  rw [activation_eq]
  unfold request
  split
  · next h => rw [h]; rfl
  · next h => rw [h]; rfl

/-- The roster after a request to activate a universe. Only an activation changes it. -/
def activate (r : Roster) (u : UniverseId) (now : Nat) (join : Except ReceiverError Unit) :
    Roster :=
  match r.activation u join with
  | .activated => { r with workers := r.workers.insert u (Worker.start u r.timeout now) }
  | _ => r

/-- The roster after a universe was deactivated. Its worker discards what it has queued. -/
def deactivate (r : Roster) (u : UniverseId) : Roster :=
  match r.workers.find? u with
  | none => r
  | some w =>
    { r with workers := r.workers.erase u, leaving := r.leaving ++ [w.deactivate.release] }

/-- The closed roster. Its workers still handle what they have queued. -/
def shutdown (r : Roster) : Roster :=
  if r.isClosed then r
  else
    { r with
      workers := Directory.empty
      leaving := r.leaving ++ r.workers.values.map Worker.release
      isClosed := true }

/-! ## Steps -/

/-- What a step means for one universe: a packet for another one is no packet. -/
def stepFor (packet : Option Packet) (now : Nat) (u : UniverseId) : Step :=
  ⟨packet.filter (fun p => p.universeId = u), now⟩

/-- Whether a packet is for an active universe. -/
def isMatched (r : Roster) (packet : Option Packet) : Bool :=
  packet.any fun p => r.isActive p.universeId

/-- The roster after a step. Every worker is offered what the step means for its universe. -/
def dispatch (r : Roster) (packet : Option Packet) (now : Nat) : Roster :=
  { r with
    workers := r.workers.map fun u w => w.offer (stepFor packet now u)
    outlet := r.workers.entries.foldl (fun o e => o.offered e.2 (stepFor packet now e.1)) r.outlet }

/-! ## Coming to rest -/

/-- Run the workers of a list one after the other on the outlet that they share. -/
def runAll (run : Pipeline → Pipeline) : List Worker → Outlet → List Worker × Outlet
  | [], o => ([], o)
  | w :: rest, o =>
    let p := run ⟨w, o⟩
    let later := runAll run rest p.outlet
    (p.worker :: later.1, later.2)

/-- Run every worker; those that are done with leaving are gone. -/
def runWorkers (r : Roster) (run : Pipeline → Pipeline) : Roster :=
  let (leaving, outlet) := runAll run r.leaving r.outlet
  let (workers, outlet) := r.workers.mapState
    (fun _ w o => let p := run ⟨w, o⟩; (p.worker, p.outlet)) outlet
  { r with
    workers := workers
    leaving := leaving.filter (fun w => !w.isFinished)
    outlet := outlet }

/-- The roster once it has come to rest with a consumer that receives whatever it can. -/
def settle (r : Roster) : Roster := r.runWorkers Pipeline.settle

def press (r : Roster) : Roster := r.runWorkers Pipeline.press

/-- Whether both sinks are disconnected: nobody is left to put anything into them. -/
def sinksClosed (r : Roster) : Bool := r.isClosed && r.workers.entries.isEmpty && r.leaving.isEmpty

def cleared (r : Roster) : Roster := { r with outlet := r.outlet.cleared }

end Roster

end StreamingAcn
