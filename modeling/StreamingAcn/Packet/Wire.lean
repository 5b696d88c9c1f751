/-
StreamingAcn.Packet.Wire — data packets as datagrams.

`Packet.encode` writes a packet as the octets of a datagram and `Packet.decode` reads one back.
Reading looks only at what identifies a data packet: the length fields of the layers, what follows
the source name and what follows the announced slots do not matter to it.
-/
import StreamingAcn.Packet.Basic
import StreamingAcn.Packet.Frame
import StreamingAcn.Text.Utf8

namespace StreamingAcn.Packet

/-! ## The source name -/

/-- The width of the name field. The last octet is always zero. -/
def nameWidth : Nat := 64

/-- A name as its field: the first 63 octets of it, and zeros after them. -/
def nameField (name : String) : Octets :=
  let kept := (Text.Utf8.encode name).take (nameWidth - 1)
  kept ++ List.replicate (nameWidth - kept.length) 0

/-- The name that a field holds: the text in front of the first zero octet. -/
def readName (field : Octets) : String := Text.Utf8.decodeLossy (field.takeWhile (· ≠ 0))

/-! ## Writing -/

/-- Flags and length of a layer in one word: four flag bits of value 7, twelve bits of length. -/
def lengthField (length : Nat) : Octets := Octets.ofWord (UInt16.ofNat (0x7000 + length % 0x1000))

/-- The octets of a packet. Each layer announces the number of octets from its start to the end. -/
def encode (p : Packet) : Octets :=
  let total := headerLength + p.slots.length
  Octets.ofWord 0x0010 ++ Octets.ofWord 0 ++ identifierOctets ++
  lengthField (total - 16) ++ Octets.ofLong 4 ++ p.cid.octets ++
  lengthField (total - 38) ++ Octets.ofLong 2 ++ nameField p.sourceName ++ [p.priority] ++
  Octets.ofWord p.syncAddress ++ [p.sequenceNumber, p.options] ++ Octets.ofWord p.universeId ++
  lengthField (total - 115) ++ [0x02, 0xa1] ++ Octets.ofWord 0 ++ Octets.ofWord 1 ++
  Octets.ofWord (UInt16.ofNat (p.slots.length + 1)) ++ [p.startCode] ++ p.slots

/-! ## Reading -/

def ofFrame (f : Frame) : Packet where
  universeId := f.word 113
  cid := f.cid
  sourceName := readName (f.span 44 nameWidth)
  priority := f.octet 108
  syncAddress := f.word 109
  sequenceNumber := f.octet 111
  options := f.octet 112
  startCode := f.octet 125
  slots := f.slots
  slots_le := f.length_slots_le

/-- The packet that a datagram holds, or the first requirement that it fails. -/
def decode (datagram : Octets) : Except Fault Packet :=
  if short : datagram.length < headerLength then .error (.truncated datagram.length)
  else if long : datagram.length > maxLength then .error (.tooLong datagram.length)
  else
    let frame : Frame := ⟨datagram, Nat.le_of_not_lt short, Nat.le_of_not_lt long⟩
    match frame.fault? with
    | some fault => .error fault
    | none => .ok (ofFrame frame)

end StreamingAcn.Packet
