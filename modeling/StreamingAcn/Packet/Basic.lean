/-
StreamingAcn.Packet.Basic — the content of one data packet.

A packet carries up to 512 slots of one universe, and says who sent it, at which priority and in
which place of the sender's sequence. `Packet.withSlots` fills in the payload and keeps what fits.
-/
import StreamingAcn.Cid
import StreamingAcn.UniverseId

namespace StreamingAcn

def maxSlots : Nat := 512

/-- One data packet. Fields that are not given have the values a plain sender uses. -/
structure Packet where
  universeId : UniverseId
  cid : Cid := Cid.zero
  sourceName : String := ""
  /-- The priority of the source; the higher number wins. -/
  priority : UInt8 := 100
  /-- The universe on which a synchronization packet releases the data, 0 for none. -/
  syncAddress : UInt16 := 0
  /-- The place in the sender's sequence, modulo 256. -/
  sequenceNumber : UInt8 := 0
  options : UInt8 := 0
  /-- What the slots mean; 0 for dimmer levels. -/
  startCode : UInt8 := 0
  /-- The slots, lowest address first. -/
  slots : Octets := []
  slots_le : slots.length ≤ maxSlots := by decide
  deriving DecidableEq

namespace Packet

/-- The packet with other slots: the first 512 of those given. -/
def withSlots (p : Packet) (data : Octets) : Packet :=
  { p with slots := data.take maxSlots, slots_le := List.length_take_le _ _ }

/-- Whether the data is meant for preview only, not for live output. -/
def isPreview (p : Packet) : Bool := p.options &&& 0x80 != 0

/-- Whether the source says that it leaves the universe. -/
def isTerminated (p : Packet) : Bool := p.options &&& 0x40 != 0

/-- Whether the receiver has to wait for synchronization. -/
def forcesSync (p : Packet) : Bool := p.options &&& 0x20 != 0

end Packet

end StreamingAcn
