/-
StreamingAcn.Packet.Fault — why a datagram is not a data packet.

A fault names the requirement that a datagram fails and what was found in its place;
`Fault.message` words it.
-/
import StreamingAcn.Octets

namespace StreamingAcn.Packet

/-- The three nested layers of a data packet, outermost first. -/
inductive Layer
  | root
  | framing
  | dmp
  deriving DecidableEq

def Layer.name : Layer → String
  | .root => "root"
  | .framing => "framing"
  | .dmp => "dmp"

/-- A requirement that a datagram fails. -/
inductive Fault
  | truncated (length : Nat)
  | tooLong (length : Nat)
  | preamble
  | identifier
  /-- The flag bits in front of a layer's length are wrong. -/
  | flags (layer : Layer) (found : UInt8)
  /-- The root layer holds something else than data. -/
  | rootVector (found : UInt32)
  /-- The framing layer holds something else than data. -/
  | framingVector (found : UInt32)
  /-- The property layer does not set properties. -/
  | dmpVector (found : UInt8)
  /-- The property layer uses other addresses or values. -/
  | addressType (found : UInt8)
  /-- The properties do not run from 0 in steps of 1. -/
  | addressing (first increment : UInt16)
  /-- The announced number of properties is 0, too large, or more than the datagram holds. -/
  | propertyCount (count : UInt16) (length : Nat)
  deriving DecidableEq

def Fault.message : Fault → String
  | .truncated length => s!"datagram too short: {length} bytes"
  | .tooLong length => s!"datagram too long: {length} bytes"
  | .preamble => "invalid preamble/postamble"
  | .identifier => "ACN packet identifier mismatch"
  | .flags layer found =>
    s!"invalid PDU flags {Octets.hexLiteral 1 found.toNat} in {layer.name} layer"
  | .rootVector found => s!"unsupported root vector {Octets.hexLiteral 8 found.toNat}"
  | .framingVector found => s!"unsupported framing vector {Octets.hexLiteral 8 found.toNat}"
  | .dmpVector found => s!"invalid DMP vector {Octets.hexLiteral 2 found.toNat}"
  | .addressType found => s!"invalid DMP address/data type {Octets.hexLiteral 2 found.toNat}"
  | .addressing first increment =>
    s!"invalid DMP addressing (first={first.toNat}, increment={increment.toNat})"
  | .propertyCount count length =>
    s!"property value count {count.toNat} does not fit a {length}-byte datagram"

end StreamingAcn.Packet
