/-
StreamingAcn.Delivery.Pipeline — a worker, its sinks and the consumer behind them.

A pipeline changes by actions: steps are offered, the worker moves, an item goes into a sink with
room or straight to the consumer, the consumer receives, the universe is deactivated. The order is
left open by `Pipeline.act?`; two orders are singled out. A pipeline that settles has a consumer
that receives whatever it can, one that is pressed has a consumer that receives nothing.

Definitions:

* `Pipeline.act?`: the pipeline after an action, if the action is possible;
* `Pipeline.settle`, `Pipeline.press`: as far as the worker gets with and without a consumer.
-/
import StreamingAcn.Counters
import StreamingAcn.Delivery.Sink
import StreamingAcn.Delivery.Worker

namespace StreamingAcn.Delivery

/-- What the workers of a receiver share: its sinks and its counters. -/
structure Outlet where
  packets : Sink Packet
  reports : Sink Report
  counters : Counters
  deriving DecidableEq

namespace Outlet

/-- An outlet nothing has gone through, with room for `capacity` packets and as many reports. -/
def start (capacity : Nat) : Outlet := ⟨.empty capacity, .empty capacity, {}⟩

def put? (o : Outlet) : Item → Option Outlet
  | .packet p => (o.packets.put? p).map fun s => { o with packets := s }
  | .report r => (o.reports.put? r).map fun s => { o with reports := s }

/-- Hand an item straight to the consumer, through a sink that can hold none. -/
def handOver? (o : Outlet) : Item → Option Outlet
  | .packet p => (o.packets.handOver? p).map fun s => { o with packets := s }
  | .report r => (o.reports.handOver? r).map fun s => { o with reports := s }

/-- The outlet with a consumer that has put aside what it received. -/
def cleared (o : Outlet) : Outlet :=
  { o with packets := o.packets.cleared, reports := o.reports.cleared }

/-- The outlet after a step was offered to a worker. A packet that finds a full queue is counted. -/
def offered (o : Outlet) (worker : Worker) (step : Step) : Outlet :=
  if worker.admission = .full ∧ step.packet.isSome then
    { o with counters := o.counters.overflow }
  else o

def load (o : Outlet) : Nat := o.packets.held.length + o.reports.held.length

end Outlet

structure Pipeline where
  worker : Worker
  outlet : Outlet
  deriving DecidableEq

/-- What can happen to a pipeline. -/
inductive Action
  | offer (step : Step)
  | move
  /-- The item that the worker offers goes into a sink with room. -/
  | put
  /-- The item that the worker offers goes straight to the consumer. -/
  | handOver
  | receivePacket
  | receiveReport
  | deactivate
  | release
  deriving DecidableEq

namespace Pipeline

def offer (p : Pipeline) (step : Step) : Pipeline :=
  ⟨p.worker.offer step, p.outlet.offered p.worker step⟩

/-- The worker makes its next move. Verdicts are counted before their items go anywhere. -/
def move? (p : Pipeline) : Option Pipeline :=
  p.worker.move?.map fun (worker, verdict) =>
    match verdict with
    | none => ⟨worker, p.outlet⟩
    | some v => ⟨worker, { p.outlet with counters := p.outlet.counters.tally v }⟩

/-- The pipeline after an action, or `none` where the action is not possible. -/
def act? (p : Pipeline) : Action → Option Pipeline
  | .offer step => some (p.offer step)
  | .move => p.move?
  | .put => do
    let outlet ← p.outlet.put? (← p.worker.item?)
    return ⟨p.worker.sent, outlet⟩
  | .handOver => do
    let outlet ← p.outlet.handOver? (← p.worker.item?)
    return ⟨p.worker.sent, outlet⟩
  | .receivePacket => p.outlet.packets.receive?.map fun s =>
    { p with outlet := { p.outlet with packets := s } }
  | .receiveReport => p.outlet.reports.receive?.map fun s =>
    { p with outlet := { p.outlet with reports := s } }
  | .deactivate => some { p with worker := p.worker.deactivate }
  | .release => some { p with worker := p.worker.release }

/-- The pipeline after the first of some actions that is possible. -/
def first? (p : Pipeline) : List Action → Option Pipeline
  | [] => none
  | a :: rest =>
    match p.act? a with
    | some q => some q
    | none => p.first? rest

/-- Repeat the first possible one of some actions, at most `n` times. -/
def repeatFirst (actions : List Action) : Nat → Pipeline → Pipeline
  | 0, p => p
  | n + 1, p =>
    match p.first? actions with
    | none => p
    | some q => repeatFirst actions n q

/-- A bound on what can happen without new steps. -/
def effort (p : Pipeline) : Nat := p.worker.effort + p.outlet.load

/-- The actions of a worker and a consumer that receives whenever it can. -/
def attended : List Action := [.receivePacket, .receiveReport, .move, .put, .handOver]

def unattended : List Action := [.move, .put]

/-- The pipeline once it has come to rest with a consumer that receives whenever it can. -/
def settle (p : Pipeline) : Pipeline := repeatFirst attended p.effort p

def press (p : Pipeline) : Pipeline := repeatFirst unattended p.effort p

end Pipeline

end StreamingAcn.Delivery
