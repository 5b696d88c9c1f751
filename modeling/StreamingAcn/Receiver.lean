/-
StreamingAcn.Receiver — reading datagrams for the active universes.

A receiver reads datagrams one by one, decodes them and dispatches the packets to its roster. A
read that ends without a datagram is dispatched too, as word that nothing came. A read that fails
ends the receiver for good, and so does a stop.

Definitions:

* `Reading`: what a read can bring, and `Reading.ofError` where it fails;
* `Receiver.read`: the receiver after a read;
* `Receiver.activate`, `Receiver.deactivate`, `Receiver.stop`: the requests of its owner.
-/
import StreamingAcn.Packet.Wire
import StreamingAcn.Roster
import StreamingAcn.Settings

namespace StreamingAcn

/-- How many octets of a datagram are read: one more than the longest packet has. -/
def bufferLength : Nat := 639

inductive Reading
  | datagram (octets : Octets)
  /-- The time allowed for the read passed. -/
  | nothing
  /-- The read was interrupted and can be repeated. -/
  | interrupted
  | failed
  deriving DecidableEq

/-- Why a read failed. -/
inductive ReadError
  | interrupted
  | wouldBlock
  | timedOut
  | connectionReset
  | other (cause : String)

/-- What a read brings that failed. Only an interrupted one is repeated. -/
def Reading.ofError : ReadError → Reading
  | .interrupted => .interrupted
  | .wouldBlock | .timedOut | .connectionReset | .other _ => .failed

structure Receiver where
  settings : Settings
  roster : Roster
  isRunning : Bool

namespace Receiver

def start (settings : Settings) : Except ReceiverError Receiver :=
  match settings.check with
  | .error e => .error e
  | .ok () => .ok ⟨settings, Roster.start settings.timeout settings.sinkCapacity, true⟩

def takeDatagram (roster : Roster) (datagram : Octets) (now : Nat) : Roster :=
  let seen := datagram.take bufferLength
  let roster := roster.count (·.datagram seen.length)
  match Packet.decode seen with
  | .error _ => roster.count Counters.invalid
  | .ok packet =>
    let dispatched := roster.dispatch (some packet) now
    if roster.isMatched (some packet) then dispatched else dispatched.count Counters.unmatched

def stop (r : Receiver) : Receiver := { r with roster := r.roster.shutdown, isRunning := false }

/-- The receiver after a read. A receiver that has stopped does not read. -/
def read (r : Receiver) (reading : Reading) (now : Nat) : Receiver :=
  if !r.isRunning then r
  else
    match reading with
    | .datagram octets => { r with roster := takeDatagram r.roster octets now }
    | .nothing => { r with roster := (r.roster.count Counters.readTimeout).dispatch none now }
    | .interrupted => r
    | .failed => r.stop

/-- What comes of a request to activate a universe of a receiver that joins no groups. -/
def activation (r : Receiver) (u : UniverseId) : Activation := r.roster.activation u (.ok ())

def activate (r : Receiver) (u : UniverseId) (now : Nat) : Receiver :=
  { r with roster := r.roster.activate u now (.ok ()) }

/-- Whether a request to deactivate a universe is granted. -/
def deactivation (r : Receiver) : Except ReceiverError Unit :=
  if r.roster.isClosed then .error .closed else .ok ()

def deactivate (r : Receiver) (u : UniverseId) : Receiver :=
  if r.roster.isClosed then r else { r with roster := r.roster.deactivate u }

/-- The receiver once its workers have come to rest with a consumer that receives all it can. -/
def settle (r : Receiver) : Receiver := { r with roster := r.roster.settle }

def cleared (r : Receiver) : Receiver := { r with roster := r.roster.cleared }

end Receiver

end StreamingAcn
