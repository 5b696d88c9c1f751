/-
StreamingAcn.Packet.Frame — the layout of a data packet on the wire.

A frame is a datagram long enough for the headers and no longer than the longest packet. Its
fields stand at fixed offsets, words with the high octet first:

    0 preamble size     22 component identifier   109 synchronization   118 address type
    2 postamble size    38 framing flags, length  111 sequence          119 first address
    4 identifier        40 framing vector         112 options           121 increment
   16 root flags        44 source name            113 universe          123 property count
   18 root vector      108 priority               115 DMP flags         125 start code
                                                  117 DMP vector        126 slots

Definitions:

* `Frame.octet`, `Frame.word`, `Frame.long`, `Frame.span`: what stands at an offset;
* `Frame.requirements`: the conditions on a frame in the order in which they are looked at, each
  with the fault of a frame that fails it.
-/
import StreamingAcn.Packet.Fault
import StreamingAcn.Cid

namespace StreamingAcn.Packet

/-- The number of octets in front of the first slot. -/
def headerLength : Nat := 126

def maxLength : Nat := 638

/-- The most properties a packet can hold: the start code and 512 slots. -/
def maxProperties : UInt16 := 513

/-- The identifier that opens every packet of the protocol family: "ASC-E1.17" and three zeros. -/
def identifierOctets : Octets :=
  [0x41, 0x53, 0x43, 0x2d, 0x45, 0x31, 0x2e, 0x31, 0x37, 0x00, 0x00, 0x00]

/-- A datagram whose length fits a data packet. -/
structure Frame where
  octets : Octets
  length_ge : headerLength ≤ octets.length
  length_le : octets.length ≤ maxLength

namespace Frame

def octet (f : Frame) (i : Nat) (h : i < headerLength := by decide) : UInt8 :=
  f.octets.get ⟨i, Nat.lt_of_lt_of_le h f.length_ge⟩

def word (f : Frame) (i : Nat) (h : i + 1 < headerLength := by decide) : UInt16 :=
  Octets.joinWord (f.octet i (Nat.lt_of_succ_lt h)) (f.octet (i + 1) h)

def long (f : Frame) (i : Nat) (h : i + 3 < headerLength := by decide) : UInt32 :=
  Octets.joinLong (f.octet i (by omega)) (f.octet (i + 1) (by omega))
    (f.octet (i + 2) (by omega)) (f.octet (i + 3) h)

/-- The `n` octets from an offset on. -/
def span (f : Frame) (i n : Nat) : Octets := (f.octets.drop i).take n

theorem length_span {f : Frame} {i n : Nat} (h : i + n ≤ headerLength) :
    (f.span i n).length = n := by
  have := f.length_ge
  simp only [span, List.length_take, List.length_drop]
  omega

/-- The flag bits of the layer whose length field stands at an offset. -/
def flagBits (f : Frame) (i : Nat) (h : i < headerLength := by decide) : UInt8 := f.octet i h >>> 4

def cid (f : Frame) : Cid := ⟨f.span 22 16, length_span (by decide)⟩

/-- The number of properties that the frame announces: the start code and the slots. -/
def propertyCount (f : Frame) : UInt16 := f.word 123

/-- What a frame has to satisfy, in order, and the fault of one that does not. -/
def requirements (f : Frame) : List (Bool × Fault) :=
  [ (f.word 0 = 0x0010 ∧ f.word 2 = 0, .preamble),
    (f.span 4 12 = identifierOctets, .identifier),
    (f.flagBits 16 = 7, .flags .root (f.flagBits 16)),
    (f.long 18 = 4, .rootVector (f.long 18)),
    (f.flagBits 38 = 7, .flags .framing (f.flagBits 38)),
    (f.long 40 = 2, .framingVector (f.long 40)),
    (f.flagBits 115 = 7, .flags .dmp (f.flagBits 115)),
    (f.octet 117 = 2, .dmpVector (f.octet 117)),
    (f.octet 118 = 0xa1, .addressType (f.octet 118)),
    (f.word 119 = 0 ∧ f.word 121 = 1, .addressing (f.word 119) (f.word 121)),
    (1 ≤ f.propertyCount ∧ f.propertyCount ≤ maxProperties ∧
        125 + f.propertyCount.toNat ≤ f.octets.length,
      .propertyCount f.propertyCount f.octets.length) ]

/-- The fault of the first requirement that the frame fails. -/
def fault? (f : Frame) : Option Fault :=
  (f.requirements.find? (fun r => !r.1)).map (·.2)

def slots (f : Frame) : Octets := f.span headerLength (f.propertyCount.toNat - 1)

theorem length_slots_le (f : Frame) : f.slots.length ≤ 512 := by
  have := f.length_le
  simp only [maxLength] at this
  simp only [slots, span, headerLength, List.length_take, List.length_drop]
  omega

end Frame

end StreamingAcn.Packet
