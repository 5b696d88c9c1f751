/-
StreamingAcn.Proofs.Packet.Bounds — reading a datagram never leaves it.

A frame has the octets of the headers by its type, and a span that reaches beyond the end of a
datagram is cut short without a word. So that no field is ever read from outside is said of a
reader that notices: every octet and every slice is asked for, and the whole reading comes to
nothing where one is missing. It reads layer by layer and stops at the first fault, and it always
comes to what `decode` comes to.

Definitions:

* `Guarded.octet`, `Guarded.word`, `Guarded.long`, `Guarded.slice`: what stands at an offset, if
  the datagram has it;
* `Guarded.decode`: the reader that notices.

Main statement: `Guarded.decode_eq`, it never notices anything.
-/
import StreamingAcn.Packet.Wire

namespace StreamingAcn.Packet.Guarded

/-! ## Asking for octets -/

def octet (b : Octets) (i : Nat) : Option UInt8 := b[i]?

def word (b : Octets) (i : Nat) : Option UInt16 := do
  return Octets.joinWord (← octet b i) (← octet b (i + 1))

def long (b : Octets) (i : Nat) : Option UInt32 := do
  return Octets.joinLong (← octet b i) (← octet b (i + 1)) (← octet b (i + 2)) (← octet b (i + 3))

/-- The flag bits of the layer whose length field stands at an offset. -/
def flagBits (b : Octets) (i : Nat) : Option UInt8 := do return (← octet b i) >>> 4

/-- The octets from one offset up to another. -/
def slice (b : Octets) (first past : Nat) : Option Octets :=
  if first ≤ past ∧ past ≤ b.length then some ((b.take past).drop first) else none

/-! ## Reading -/

/-- A read that is checked: the fault of what was read, if it has one. -/
def require {α : Type} (read : Option α) (isMet : α → Bool) (fault : α → Fault) :
    Option (Option Fault) :=
  read.map fun a => if isMet a then none else some (fault a)

/-- A read that is not checked. -/
def look {α : Type} (read : Option α) : Option (Option Fault) := read.map fun _ => none

def flags (b : Octets) (i : Nat) (layer : Layer) : Option (Option Fault) :=
  require (flagBits b i) (· = 7) (.flags layer)

def pair {α β : Type} (first : Option α) (second : Option β) : Option (α × β) := do
  return (← first, ← second)

/-- All reads in front of the slots in their order, those of a layer behind its checks. -/
def reads (b : Octets) : List (Option (Option Fault)) :=
  [ require (pair (word b 0) (word b 2)) (fun w => w.1 = 0x0010 ∧ w.2 = 0) (fun _ => .preamble),
    require (slice b 4 16) (· = identifierOctets) (fun _ => .identifier),
    flags b 16 .root,
    require (long b 18) (· = 4) .rootVector,
    look (slice b 22 38),
    flags b 38 .framing,
    require (long b 40) (· = 2) .framingVector,
    look (slice b 44 108), look (octet b 108), look (word b 109), look (octet b 111),
    look (octet b 112), look (word b 113),
    flags b 115 .dmp,
    require (octet b 117) (· = 2) .dmpVector,
    require (octet b 118) (· = 0xa1) .addressType,
    require (pair (word b 119) (word b 121)) (fun w => w.1 = 0 ∧ w.2 = 1)
      (fun w => .addressing w.1 w.2),
    require (word b 123)
      (fun n => 1 ≤ n ∧ n ≤ maxProperties ∧ 125 + n.toNat ≤ b.length)
      (fun n => .propertyCount n b.length) ]

/-- The first fault among some reads. What follows it is not read. -/
def firstFault : List (Option (Option Fault)) → Option (Option Fault)
  | [] => some none
  | read :: rest => do
    match ← read with
    | some fault => return some fault
    | none => firstFault rest

/-- The packet of a datagram without a fault. -/
def content (b : Octets) : Option Packet := do
  let cid ← Cid.ofOctets? (← slice b 22 38)
  let name ← slice b 44 108
  let count ← word b 123
  let slots ← slice b 126 (125 + count.toNat)
  let p : Packet :=
    { universeId := ← word b 113
      cid := cid
      sourceName := readName name
      priority := ← octet b 108
      syncAddress := ← word b 109
      sequenceNumber := ← octet b 111
      options := ← octet b 112
      startCode := ← octet b 125 }
  return p.withSlots slots

/-- What a datagram holds, `none` if something is read outside of it. -/
def decode (b : Octets) : Option (Except Fault Packet) :=
  if b.length < headerLength then some (.error (.truncated b.length))
  else if maxLength < b.length then some (.error (.tooLong b.length))
  else do
    match ← firstFault (reads b) with
    | some fault => return .error fault
    | none => return .ok (← content b)

/-! ## What a frame has -/

section Frame

variable (f : Frame)

theorem octet_frame {i : Nat} (h : i < headerLength) : octet f.octets i = some (f.octet i h) :=
  List.getElem?_eq_getElem (Nat.lt_of_lt_of_le h f.length_ge)

theorem word_frame {i : Nat} (h : i + 1 < headerLength) : word f.octets i = some (f.word i h) := by
  rw [word, octet_frame f (Nat.lt_of_succ_lt h), octet_frame f h]
  rfl

theorem long_frame {i : Nat} (h : i + 3 < headerLength) : long f.octets i = some (f.long i h) := by
  rw [long, octet_frame f (i := i) (by omega), octet_frame f (i := i + 1) (by omega),
    octet_frame f (i := i + 2) (by omega), octet_frame f h]
  rfl

theorem flagBits_frame {i : Nat} (h : i < headerLength) :
    flagBits f.octets i = some (f.flagBits i h) := by
  rw [flagBits, octet_frame f h]
  rfl

theorem slice_frame {i n : Nat} (h : i + n ≤ f.octets.length) :
    slice f.octets i (i + n) = some (f.span i n) := by
  rw [slice, if_pos ⟨Nat.le_add_right i n, h⟩, Frame.span, List.drop_take, Nat.add_sub_cancel_left]

/-- A frame has all that is read in front of the slots. -/
theorem firstFault_reads : firstFault (reads f.octets) =
    firstFault (f.requirements.map fun r => some (if r.1 then none else some r.2)) := by
  have hlength := f.length_ge
  have hid : slice f.octets 4 16 = some (f.span 4 12) :=
    slice_frame f (i := 4) (n := 12) (Nat.le_trans (by decide) hlength)
  have hcid : slice f.octets 22 38 = some (f.span 22 16) :=
    slice_frame f (i := 22) (n := 16) (Nat.le_trans (by decide) hlength)
  have hname : slice f.octets 44 108 = some (f.span 44 nameWidth) :=
    slice_frame f (i := 44) (n := nameWidth) (Nat.le_trans (by decide) hlength)
  simp only [reads, flags, pair, require, look, hid, hcid, hname,
    word_frame f (i := 0) (by decide), word_frame f (i := 2) (by decide),
    flagBits_frame f (i := 16) (by decide), long_frame f (i := 18) (by decide),
    flagBits_frame f (i := 38) (by decide), long_frame f (i := 40) (by decide),
    octet_frame f (i := 108) (by decide), word_frame f (i := 109) (by decide),
    octet_frame f (i := 111) (by decide), octet_frame f (i := 112) (by decide),
    word_frame f (i := 113) (by decide), flagBits_frame f (i := 115) (by decide),
    octet_frame f (i := 117) (by decide), octet_frame f (i := 118) (by decide),
    word_frame f (i := 119) (by decide), word_frame f (i := 121) (by decide),
    word_frame f (i := 123) (by decide)]
  rfl

theorem firstFault_map (rs : List (Bool × Fault)) :
    firstFault (rs.map fun r => some (if r.1 then none else some r.2)) =
      some ((rs.find? (fun r => !r.1)).map (·.2)) := by
  induction rs with
  | nil => rfl
  | cons r rest ih =>
    obtain ⟨isMet, fault⟩ := r
    cases isMet with
    | true => exact ih
    | false => rfl

theorem firstFault_frame : firstFault (reads f.octets) = some f.fault? := by
  rw [firstFault_reads, firstFault_map, Frame.fault?]

/-- The announced slots of a frame without a fault end inside of it. -/
theorem count_of_sound {f : Frame} (h : f.fault? = none) :
    1 ≤ f.propertyCount.toNat ∧ f.propertyCount.toNat ≤ 513 ∧
      125 + f.propertyCount.toNat ≤ f.octets.length := by
  rw [Frame.fault?, Option.map_eq_none_iff, List.find?_eq_none] at h
  have hcount := h
    (decide (1 ≤ f.propertyCount ∧ f.propertyCount ≤ maxProperties ∧
      125 + f.propertyCount.toNat ≤ f.octets.length),
      .propertyCount f.propertyCount f.octets.length) (by simp [Frame.requirements])
  simp only [Bool.not_eq_true', decide_eq_false_iff_not, Decidable.not_not] at hcount
  exact hcount

/-- A frame without a fault has all that its packet is made of. -/
theorem content_frame {f : Frame} (h : f.fault? = none) : content f.octets = some (ofFrame f) := by
  obtain ⟨hpos, -, hend⟩ := count_of_sound h
  have hlength := f.length_ge
  have hcid : slice f.octets 22 38 = some (f.span 22 16) :=
    slice_frame f (i := 22) (n := 16) (Nat.le_trans (by decide) hlength)
  have hname : slice f.octets 44 108 = some (f.span 44 nameWidth) :=
    slice_frame f (i := 44) (n := nameWidth) (Nat.le_trans (by decide) hlength)
  have hslots : slice f.octets 126 (125 + f.propertyCount.toNat) = some f.slots := by
    have hpast : 125 + f.propertyCount.toNat = 126 + (f.propertyCount.toNat - 1) := by omega
    rw [hpast]
    exact slice_frame f (by omega)
  have hofOctets : Cid.ofOctets? (f.span 22 16) = some f.cid :=
    dif_pos (Frame.length_span (by decide))
  have htake : f.slots.take maxSlots = f.slots := List.take_of_length_le f.length_slots_le
  have hcount : word f.octets 123 = some f.propertyCount := word_frame f (by decide)
  simp only [content, hcid, hofOctets, hname, hcount, Option.bind_eq_bind, Option.bind_some, hslots,
    word_frame f (i := 113) (by decide), octet_frame f (i := 108) (by decide),
    word_frame f (i := 109) (by decide), octet_frame f (i := 111) (by decide),
    octet_frame f (i := 112) (by decide), octet_frame f (i := 125) (by decide), withSlots, htake]
  rfl

end Frame

/-- Nothing is ever read outside of a datagram. -/
theorem decode_eq (b : Octets) : decode b = some (Packet.decode b) := by
  by_cases hshort : b.length < headerLength
  · rw [decode, if_pos hshort, Packet.decode, dif_pos hshort]
  · by_cases hlong : maxLength < b.length
    · rw [decode, if_neg hshort, if_pos hlong, Packet.decode, dif_neg hshort, dif_pos hlong]
    · have hframe := firstFault_frame ⟨b, Nat.le_of_not_lt hshort, Nat.le_of_not_lt hlong⟩
      rw [decode, if_neg hshort, if_neg hlong, Packet.decode, dif_neg hshort, dif_neg hlong]
      simp only [hframe, Option.bind_eq_bind, Option.bind_some]
      split
      · next fault hf => rw [hf]; rfl
      · next hf =>
        have hcontent := content_frame hf
        rw [hf, hcontent]
        rfl

end StreamingAcn.Packet.Guarded
