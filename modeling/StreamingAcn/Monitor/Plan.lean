/-
StreamingAcn.Monitor.Plan — what the monitor is to do.

A plan says which universes to watch and how. It is put together from two partial plans, one from a
file and one from flags: what a flag gives replaces what the file gives, and what neither gives has
a default. A plan can be carried out if it has a universe, only universes that can carry data, and
a timeout.

Definitions:

* `Wishes`: a partial plan, `Plan.ofWishes`: the plan with defaults for the rest;
* `Plan.fault?`: the first reason why a plan cannot be carried out;
* `Plan.settings`: the settings of the receiver that carries out the plan.
-/
import StreamingAcn.Monitor.Format
import StreamingAcn.Settings

namespace StreamingAcn.Monitor

/-- What a file or flags say about a plan. -/
structure Wishes where
  endpoint : Option Network.Endpoint := none
  interface : Option Network.Ipv4 := none
  multicast : Option Bool := none
  universes : Option (List UniverseId) := none
  timeoutMs : Option Nat := none
  sinkCapacity : Option Nat := none
  format : Option Format := none
  deriving DecidableEq

/-- The wishes that one says, and where it is silent those of another. -/
def Wishes.orElse (first second : Wishes) : Wishes where
  endpoint := first.endpoint.or second.endpoint
  interface := first.interface.or second.interface
  multicast := first.multicast.or second.multicast
  universes := first.universes.or second.universes
  timeoutMs := first.timeoutMs.or second.timeoutMs
  sinkCapacity := first.sinkCapacity.or second.sinkCapacity
  format := first.format.or second.format

/-- What the monitor is to do. -/
structure Plan where
  endpoint : Network.Endpoint
  interface : Option Network.Ipv4
  multicast : Bool
  /-- The universes to watch, in the order in which they were given. -/
  universes : List UniverseId
  /-- The timeout in milliseconds. -/
  timeoutMs : Nat
  sinkCapacity : Nat
  format : Format
  deriving DecidableEq

inductive PlanFault
  | noUniverses
  | invalidUniverse (u : UniverseId)
  | zeroTimeout
  deriving DecidableEq

def PlanFault.message : PlanFault → String
  | .noUniverses => "No universes configured"
  | .invalidUniverse u => (ReceiverError.invalidUniverse u).message
  | .zeroTimeout => "timeout_ms must be non-zero"

namespace Plan

/-- The plan that some wishes make, with defaults for what they leave open. -/
def ofWishes (w : Wishes) : Plan :=
  let defaults : Settings := {}
  { endpoint := w.endpoint.getD defaults.endpoint
    interface := w.interface
    multicast := w.multicast.getD defaults.multicast
    universes := w.universes.getD []
    timeoutMs := w.timeoutMs.getD defaultTimeoutMs
    sinkCapacity := w.sinkCapacity.getD defaults.sinkCapacity
    format := w.format.getD .text }

/-- The first reason why the plan cannot be carried out, if there is one. -/
def fault? (p : Plan) : Option PlanFault :=
  if p.universes.isEmpty then some .noUniverses
  else
    match p.universes.find? (fun u => !UniverseId.isData u) with
    | some u => some (.invalidUniverse u)
    | none => if p.timeoutMs = 0 then some .zeroTimeout else none

/-- The settings of the receiver that carries out the plan. -/
def settings (p : Plan) : Settings where
  endpoint := p.endpoint
  interface := p.interface
  multicast := p.multicast
  timeout := p.timeoutMs * millisecond
  sinkCapacity := p.sinkCapacity

end Plan

end StreamingAcn.Monitor
