/-
StreamingAcn.Network.Endpoint — a local address to read datagrams from.

An endpoint pairs an address with a `udpPort`. It is written `a.b.c.d:udpPort` or
`[groups]:udpPort`, the second with an optional numeric scope behind a percent sign inside the
brackets. A scope of 0 is not shown.
-/
import StreamingAcn.Network.Ipv6

namespace StreamingAcn.Network

/-- A local address and its `udpPort`. -/
inductive Endpoint
  | v4 (ip : Ipv4) (udpPort : UInt16)
  | v6 (ip : Ipv6) (scope : UInt32) (udpPort : UInt16)
  deriving DecidableEq

namespace Endpoint

def isV4 : Endpoint → Bool
  | .v4 .. => true
  | .v6 .. => false

def text : Endpoint → String
  | .v4 ip udpPort => s!"{ip.text}:{udpPort.toNat}"
  | .v6 ip scope udpPort =>
    if scope = 0 then s!"[{ip.text}]:{udpPort.toNat}"
    else s!"[{ip.text}%{scope.toNat}]:{udpPort.toNat}"

/-- Read a number below a bound in front of a text; leading zeros are fine. -/
def readNumber? (bound : Nat) (text : List Char) : Option (Nat × List Char) :=
  let (digits, rest) := text.span Text.isDigit
  if digits.isEmpty then none
  else
    let n := Text.decimalValue digits
    if n < bound then some (n, rest) else none

/-- Read the scope of an address, 0 where none is given. -/
def readScope (text : List Char) : UInt32 × List Char :=
  match Text.skip? '%' text >>= readNumber? 4294967296 with
  | some (n, rest) => (UInt32.ofNat n, rest)
  | none => (0, text)

/-- Read a colon and a `udpPort` in front of a text. -/
def readPort? (text : List Char) : Option (UInt16 × List Char) := do
  let (n, rest) ← readNumber? 65536 (← Text.skip? ':' text)
  return (UInt16.ofNat n, rest)

def readV4? (text : List Char) : Option (Endpoint × List Char) := do
  let (ip, rest) ← Ipv4.read? text
  let (udpPort, rest) ← readPort? rest
  return (.v4 ip udpPort, rest)

def readV6? (text : List Char) : Option (Endpoint × List Char) := do
  let (ip, rest) ← Ipv6.read? (← Text.skip? '[' text)
  let (scope, rest) := readScope rest
  let (udpPort, rest) ← readPort? (← Text.skip? ']' rest)
  return (.v6 ip scope udpPort, rest)

def ofText? (text : String) : Option Endpoint :=
  match (readV4? text.toList).orElse (fun _ => readV6? text.toList) with
  | some (endpoint, []) => some endpoint
  | _ => none

end Endpoint

end StreamingAcn.Network
