/-
StreamingAcn.Settings — how a receiver is set up.

Settings have defaults, the environment can replace three of them, and `Settings.check` says
whether a receiver can be started with them.
-/
import StreamingAcn.Network.Endpoint
import StreamingAcn.ReceiverError

namespace StreamingAcn

/-- The `udpPort` that is registered for the protocol family. -/
def defaultUdpPort : UInt16 := 5568

def millisecond : Nat := 1000000

/-- The timeout that the protocol asks for, in milliseconds. -/
def defaultTimeoutMs : Nat := 2500

/-- How many elements a sink holds unless told otherwise. -/
def defaultSinkCapacity : Nat := 64

structure Settings where
  endpoint : Network.Endpoint := .v4 .unspecified defaultUdpPort
  /-- The interface on which groups are joined; the system chooses where none is given. -/
  interface : Option Network.Ipv4 := none
  /-- Whether the group of a universe is joined when the universe becomes active. -/
  multicast : Bool := true
  /-- How long a read, a source, a credit or a universe lasts without a packet, in nanoseconds. -/
  timeout : Nat := defaultTimeoutMs * millisecond
  sinkCapacity : Nat := defaultSinkCapacity
  deriving DecidableEq

namespace Settings

inductive Fault
  | zeroTimeout
  /-- Groups are to be joined from an endpoint whose address has not four octets. -/
  | multicastEndpoint (endpoint : Network.Endpoint)
  deriving DecidableEq

def Fault.message : Fault → String
  | .zeroTimeout => "timeout must be non-zero"
  | .multicastEndpoint endpoint =>
    s!"multicast reception requires an IPv4 bind address, got {endpoint.text}"

/-- The first fault of settings, if they have one. -/
def fault? (s : Settings) : Option Fault :=
  if s.timeout = 0 then some .zeroTimeout
  else if s.multicast ∧ !s.endpoint.isV4 then some (.multicastEndpoint s.endpoint)
  else none

/-- Whether a receiver can be started with the settings. -/
def check (s : Settings) : Except ReceiverError Unit :=
  match s.fault? with
  | some fault => .error (.configuration fault.message)
  | none => .ok ()

def timeoutMs (s : Settings) : Nat := s.timeout / millisecond

/-- The timeout that a variable gives: a positive number of milliseconds below 2^64. -/
def timeoutVariable? (text : String) : Option Nat :=
  match Text.unsigned? 18446744073709551616 text.toList with
  | some ms => if 0 < ms then some (ms * millisecond) else none
  | none => none

/--
The default settings with what the variables of an environment replace in them. A variable that
does not read as a value is passed over.
-/
def ofEnvironment (lookup : String → Option String) : Settings where
  endpoint := ((lookup "SACN_BIND_ADDR").bind Network.Endpoint.ofText?).getD
    ({} : Settings).endpoint
  interface := (lookup "SACN_MULTICAST_IF").bind Network.Ipv4.ofText?
  timeout := ((lookup "SACN_TIMEOUT_MS").bind timeoutVariable?).getD ({} : Settings).timeout

end Settings

end StreamingAcn
