/-
StreamingAcn.Proofs.Packet.Writing — writing a packet never leaves its datagram.

A packet is written by joining its fields, and joined fields fit whatever their lengths are. So that
every field fits the place that it is meant for is said of a writer that notices: it begins with a
datagram of zeros, puts one field after the other over it, each from one offset up to another, and
comes to nothing where a field does not fill its place or the place is not inside of the datagram.
It makes words of numbers as a machine does, by cutting off what is too large for them. It always
comes to what `encode` comes to, and it never cuts anything off: what a datagram says about its own
extent is true.

Definitions:

* `Guarded.put`, `Guarded.encode`: the writer that notices;
* `Announces`: a datagram says of its layers, its slots and its name where they end;
* `WellWritten`: what is asked of the datagram of a packet.

Main statements:

* `Guarded.encode_eq`: the writer never notices anything;
* `every_packet_well_written`: packets that were read, and packets that were put together from any
  fields and data, are written well.
-/
import StreamingAcn.Proofs.Packet.Canonical

namespace StreamingAcn.Packet

/-! ## Lengths in words -/

/-- Flags and length of a layer the way a machine makes a word of them: the length is narrowed to
16 bits, cut to 12, and the flags are set in front. -/
def Guarded.lengthWord (length : Nat) : UInt16 := 0x7000 ||| (UInt16.ofNat length &&& 0x0fff)

/-- Narrowing a length to 16 bits and cutting it to 12 leaves its lower twelve bits. -/
theorem toNat_cut (n : Nat) : (UInt16.ofNat n &&& 0x0fff).toNat = n % 0x1000 := by
  have hmask : (0x0fff : UInt16).toNat = 2 ^ 12 - 1 := rfl
  rw [UInt16.toNat_and, hmask, Nat.and_two_pow_sub_one_eq_mod, UInt16.toNat_ofNat']
  omega

theorem Guarded.lengthWord_eq (n : Nat) :
    Guarded.lengthWord n = UInt16.ofNat (0x7000 + n % 0x1000) := by
  apply UInt16.toNat_inj.1
  have hflags : (0x7000 : UInt16).toNat = 2 ^ 12 * 7 := rfl
  have hlow : n % 0x1000 < 2 ^ 12 := Nat.mod_lt n (by decide)
  rw [Guarded.lengthWord, UInt16.toNat_or, toNat_cut, hflags, ← Nat.two_pow_add_eq_or_of_lt hlow,
    UInt16.toNat_ofNat']
  omega

/-! ## A writer that notices -/

namespace Guarded

/-- A field and the place that it is meant for: from one offset up to another. -/
structure Write where
  first : Nat
  past : Nat
  field : Octets

/-- A datagram with a field put over it, if the field fills a place inside of it. -/
def put (b : Octets) (w : Write) : Option Octets :=
  if w.first ≤ w.past ∧ w.past ≤ b.length ∧ w.field.length = w.past - w.first then
    some (b.take w.first ++ w.field ++ b.drop w.past)
  else none

/-- Everything that is put over the zeros, in order. Of the name only what the field keeps is. -/
def writes (p : Packet) : List Write :=
  let total := headerLength + p.slots.length
  let name := Text.Utf8.encode p.sourceName
  let kept := min name.length (nameWidth - 1)
  [ ⟨0, 2, Octets.ofWord 0x0010⟩, ⟨2, 4, Octets.ofWord 0⟩, ⟨4, 16, identifierOctets⟩,
    ⟨16, 18, Octets.ofWord (lengthWord (total - 16))⟩, ⟨18, 22, Octets.ofLong 4⟩,
    ⟨22, 38, p.cid.octets⟩,
    ⟨38, 40, Octets.ofWord (lengthWord (total - 38))⟩, ⟨40, 44, Octets.ofLong 2⟩,
    ⟨44, 44 + kept, name.take kept⟩, ⟨108, 109, [p.priority]⟩,
    ⟨109, 111, Octets.ofWord p.syncAddress⟩, ⟨111, 112, [p.sequenceNumber]⟩,
    ⟨112, 113, [p.options]⟩, ⟨113, 115, Octets.ofWord p.universeId⟩,
    ⟨115, 117, Octets.ofWord (lengthWord (total - 115))⟩, ⟨117, 118, [0x02]⟩,
    ⟨118, 119, [0xa1]⟩, ⟨119, 121, Octets.ofWord 0⟩, ⟨121, 123, Octets.ofWord 1⟩,
    ⟨123, 125, Octets.ofWord (UInt16.ofNat (p.slots.length + 1))⟩, ⟨125, 126, [p.startCode]⟩,
    ⟨126, total, p.slots⟩ ]

def putAll (b : Octets) (ws : List Write) : Option Octets := ws.foldlM put b

/-- The datagram of a packet, `none` if something does not fit its place. -/
def encode (p : Packet) : Option Octets :=
  putAll (List.replicate (headerLength + p.slots.length) 0) (writes p)

/-! ## Fields one behind the other -/

/-- Fields that are meant for places one behind the other, from an offset on. -/
def inRow : Nat → List Octets → List Write
  | _, [] => []
  | i, field :: rest => ⟨i, i + field.length, field⟩ :: inRow (i + field.length) rest

theorem putAll_append (b : Octets) (us ws : List Write) :
    putAll b (us ++ ws) = (putAll b us).bind (putAll · ws) := by
  rw [putAll, List.foldlM_append]
  rfl

/-- A field that is put behind what has been written takes the place of as many zeros. -/
theorem put_behind (written field : Octets) (n : Nat) :
    put (written ++ List.replicate (field.length + n) 0)
        ⟨written.length, written.length + field.length, field⟩ =
      some (written ++ field ++ List.replicate n 0) := by
  have hfits : written.length ≤ written.length + field.length ∧
      written.length + field.length ≤ (written ++ List.replicate (field.length + n) 0).length ∧
      field.length = written.length + field.length - written.length := by
    rw [List.length_append, List.length_replicate]
    omega
  rw [put, if_pos hfits, List.take_left, List.drop_append, List.drop_replicate,
    List.drop_of_length_le (Nat.le_add_right _ _), List.nil_append, Nat.add_sub_cancel_left,
    Nat.add_sub_cancel_left]

theorem putAll_inRow (written : Octets) (row : List Octets) (n : Nat) :
    putAll (written ++ List.replicate (row.flatten.length + n) 0) (inRow written.length row) =
      some (written ++ row.flatten ++ List.replicate n 0) := by
  induction row generalizing written with
  | nil => simp [inRow, putAll]
  | cons field rest ih =>
    have hnext := ih (written ++ field)
    rw [List.length_append] at hnext
    rw [List.flatten_cons, List.length_append, Nat.add_assoc, inRow, putAll, List.foldlM_cons,
      put_behind, ← List.append_assoc]
    exact hnext

/-- The fields in front of the name. -/
def beforeName (p : Packet) : List Octets := (fields p).take 8

/-- The fields behind the name. -/
def behindName (p : Packet) : List Octets :=
  let total := headerLength + p.slots.length
  [ [p.priority], Octets.ofWord p.syncAddress, [p.sequenceNumber], [p.options],
    Octets.ofWord p.universeId, lengthField (total - 115), [0x02], [0xa1], Octets.ofWord 0,
    Octets.ofWord 1, Octets.ofWord (UInt16.ofNat (p.slots.length + 1)), [p.startCode], p.slots ]

/-- What the name field keeps of a name. -/
def keptName (p : Packet) : Octets := (Text.Utf8.encode p.sourceName).take (nameWidth - 1)

theorem length_keptName_le (p : Packet) : (keptName p).length ≤ 63 := List.length_take_le _ _

theorem length_beforeName (p : Packet) : (beforeName p).flatten.length = 44 := by
  rw [beforeName, List.length_flatten, List.map_take, map_length_fields,
    List.take_append_of_le_length (by decide)]
  rfl

theorem length_behindName (p : Packet) :
    (behindName p).flatten.length = 18 + p.slots.length := by
  have hlen : ∀ n, (lengthField n).length = 2 := fun _ => rfl
  simp only [behindName, List.length_flatten, List.map_cons, List.map_nil, List.sum_cons,
    List.sum_nil, Octets.length_ofWord, hlen, List.length_singleton]
  omega

/-- A packet is written as the fields in front of its name, what is kept of the name, zeros up to
the end of the name field, and the fields behind it. -/
theorem encode_eq_around_name (p : Packet) :
    Packet.encode p = (beforeName p).flatten ++ keptName p ++
      List.replicate (64 - (keptName p).length) 0 ++ (behindName p).flatten := by
  have hname : nameField p.sourceName =
      keptName p ++ List.replicate (64 - (keptName p).length) 0 := rfl
  rw [List.append_assoc (beforeName p).flatten, ← hname, encode_eq_flatten]
  simp only [beforeName, behindName, fields, List.take_succ_cons, List.take_zero, List.flatten_cons,
    List.flatten_nil, List.append_assoc, List.append_nil, List.cons_append, List.nil_append]

/-- The places of the fields are one behind the other, but for the zeros behind the name. -/
theorem writes_eq (p : Packet) :
    writes p = inRow 0 (beforeName p) ++ (inRow 44 [keptName p] ++ inRow 108 (behindName p)) := by
  have hkept : (Text.Utf8.encode p.sourceName).take
      (min (Text.Utf8.encode p.sourceName).length (nameWidth - 1)) = keptName p := by
    rw [keptName, Nat.min_comm, ← List.take_take, List.take_length]
  have hlength : (keptName p).length =
      min (Text.Utf8.encode p.sourceName).length (nameWidth - 1) := by
    rw [keptName, List.length_take, Nat.min_comm]
  have hid : identifierOctets.length = 12 := rfl
  have hword : ∀ n, Octets.ofWord (lengthWord n) = lengthField n := fun n => by
    rw [lengthWord_eq, lengthField]
  have hlen : ∀ n, (lengthField n).length = 2 := fun _ => rfl
  simp only [writes, hkept, hword, beforeName, fields, behindName, inRow, List.take_succ_cons,
    List.take_zero, List.cons_append, List.nil_append, Octets.length_ofWord, Octets.length_ofLong,
    hid, hlen, p.cid.length_octets, hlength, List.length_singleton, Nat.reduceAdd, headerLength]

/-- Every field fills its place, and every place is inside of the datagram. -/
theorem encode_eq (p : Packet) : encode p = some (Packet.encode p) := by
  have hkept := length_keptName_le p
  -- The zeros of the datagram, taken apart at the ends of the three rows.
  have hzeros : headerLength + p.slots.length =
      (beforeName p).flatten.length + ([keptName p].flatten.length +
        (64 - (keptName p).length + (behindName p).flatten.length)) := by
    rw [length_beforeName, length_behindName, List.flatten_singleton, headerLength]
    omega
  have hbefore := putAll_inRow [] (beforeName p) ([keptName p].flatten.length +
    (64 - (keptName p).length + (behindName p).flatten.length))
  have hname := putAll_inRow (beforeName p).flatten [keptName p]
    (64 - (keptName p).length + (behindName p).flatten.length)
  have hbehind := putAll_inRow ((beforeName p).flatten ++ keptName p ++
    List.replicate (64 - (keptName p).length) 0) (behindName p) 0
  have hpast : ((beforeName p).flatten ++ keptName p ++
      List.replicate (64 - (keptName p).length) 0).length = 108 := by
    rw [List.length_append, List.length_append, length_beforeName, List.length_replicate]
    omega
  rw [hpast, Nat.add_zero, List.append_assoc, ← List.replicate_add] at hbehind
  rw [length_beforeName, List.flatten_singleton] at hname
  rw [List.length_nil, List.nil_append, List.nil_append, List.flatten_singleton] at hbefore
  rw [encode, writes_eq, hzeros, putAll_append, List.flatten_singleton, hbefore, Option.bind_some,
    putAll_append, hname, Option.bind_some, hbehind, encode_eq_around_name, List.replicate_zero,
    List.append_nil]

end Guarded

/-! ## What a datagram says about its extent -/

theorem part_of_standsAt {b field : Octets} {i n : Nat} (h : StandsAt b i field)
    (hn : field.length = n) : part b i n = field := by
  obtain ⟨before, after, rfl, rfl⟩ := h
  rw [part, List.drop_left, ← hn, List.take_left]

theorem StandsAt.append_right {b front back : Octets} {i : Nat} (h : StandsAt b i (front ++ back)) :
    StandsAt b (i + front.length) back := by
  obtain ⟨before, after, rfl, rfl⟩ := h
  refine ⟨before ++ front, after, ?_, by rw [List.length_append]⟩
  rw [List.append_assoc, List.append_assoc]

/-- A name field ends in a zero. -/
theorem nameField_eq_concat (name : String) :
    ∃ front, nameField name = front ++ [0] ∧ front.length = 63 := by
  have hle : ((Text.Utf8.encode name).take 63).length ≤ 63 := List.length_take_le _ _
  refine ⟨(Text.Utf8.encode name).take 63 ++
    List.replicate (63 - ((Text.Utf8.encode name).take 63).length) 0, ?_, ?_⟩
  · rw [List.append_assoc, ← List.replicate_succ', ← Nat.sub_add_comm hle]
    rfl
  · rw [List.length_append, List.length_replicate]
    omega

/-- The offsets at which the layers begin. -/
def layerOffsets : List Nat := [16, 38, 115]

/-- A datagram of some slots says truly where it ends: it is as long as its slots ask for, each of
its layers announces the number of octets from its start to the end behind the right flags, with a
length that is none the smaller for being cut to a machine word and to twelve bits, it announces one
property more than it has slots, and the last octet of its name field is zero. -/
structure Announces (b : Octets) (slots : Nat) : Prop where
  length : b.length = 126 + slots
  length_le : b.length ≤ 638
  flags : ∀ i ∈ layerOffsets, numberAt b i 2 / 0x1000 = 7
  layer : ∀ i ∈ layerOffsets, numberAt b i 2 % 0x1000 = b.length - i
  uncut : ∀ i ∈ layerOffsets, (UInt16.ofNat (b.length - i) &&& 0x0fff).toNat = b.length - i
  count : numberAt b 123 2 = slots + 1
  nameEnd : numberAt b 107 1 = 0

theorem numberAt_layer (p : Packet) {i : Nat} (hi : i ∈ layerOffsets) :
    numberAt (encode p) i 2 = 0x7000 + ((encode p).length - i) % 0x1000 := by
  have hstands : StandsAt (encode p) i (lengthField ((encode p).length - i)) := by
    rw [length_encode]
    simp only [layerOffsets, List.mem_cons, List.not_mem_nil, or_false] at hi
    rcases hi with rfl | rfl | rfl
    · exact stands_field 3 rfl rfl (by decide)
    · exact stands_field 6 rfl rfl (by decide)
    · exact stands_field 13 rfl rfl (by decide)
  rw [numberAt, part_of_standsAt (n := 2) hstands rfl, number_lengthField]

theorem announces_encode (p : Packet) : Announces (encode p) p.slots.length := by
  have hle : (encode p).length ≤ 638 := length_encode_le_maxLength p
  have hslots : p.slots.length ≤ 512 := p.slots_le
  refine ⟨length_encode p, hle, fun i hi => ?_, fun i hi => ?_, fun i _ => ?_, ?_, ?_⟩
  · rw [numberAt_layer p hi]
    omega
  · rw [numberAt_layer p hi]
    omega
  · rw [toNat_cut]
    omega
  · have hcount := stands_field (p := p) (i := 123) 17 rfl rfl (by decide)
    rw [numberAt, part_of_standsAt (n := 2) hcount rfl, number_ofWord, UInt16.toNat_ofNat']
    omega
  · obtain ⟨front, hname, hlength⟩ := nameField_eq_concat p.sourceName
    have hfield : StandsAt (encode p) 44 (front ++ [0]) :=
      hname ▸ stands_field (p := p) 8 rfl rfl (by decide)
    have hlast := hfield.append_right
    rw [hlength] at hlast
    rw [numberAt, part_of_standsAt (n := 1) hlast rfl]
    rfl

/-! ## Every packet -/

/-- The datagram of a packet has a place for everything that is written into it, says truly where it
ends, and meets every requirement on a data packet. -/
structure WellWritten (p : Packet) : Prop where
  inside : Guarded.encode p = some (encode p)
  announces : Announces (encode p) p.slots.length
  met : ∀ r : Requirement, r.Met (encode p)

theorem wellWritten (p : Packet) : WellWritten p :=
  ⟨Guarded.encode_eq p, announces_encode p, met_of_decode (decode_written p)⟩

/-- A packet that was read from a datagram is written well, and so is one that was put together from
any fields and data, of which it keeps the first 512 octets. -/
theorem every_packet_well_written :
    (∀ (datagram : Octets) (p : Packet), decode datagram = .ok p → WellWritten p) ∧
      ∀ (fields : Packet) (data : Octets), WellWritten (fields.withSlots data) ∧
        (encode (fields.withSlots data)).length = 126 + min 512 data.length := by
  refine ⟨fun _ p _ => wellWritten p, fun fields data => ⟨wellWritten _, ?_⟩⟩
  have hslots : (fields.withSlots data).slots = data.take 512 := rfl
  rw [(announces_encode _).length, hslots, List.length_take]

/-- A datagram whose root layer announces no octets at all is read, and says 113 octets when it is
written again. -/
theorem every_packet_well_written_wrong_length :
    let blank := encode { universeId := 1, slots := [1, 2, 3] }
    let datagram := blank.take 16 ++ [0x70, 0x00] ++ blank.drop 18
    numberAt datagram 16 2 % 0x1000 = 0 ∧
      ∃ p, decode datagram = .ok p ∧ numberAt (encode p) 16 2 % 0x1000 = 113 := by
  intro blank datagram
  let frame : Frame := ⟨datagram, by decide +kernel, by decide +kernel⟩
  have hread : decode datagram = .ok (ofFrame frame) :=
    decode_of_sound (f := frame) (by decide +kernel)
  have hslots : (ofFrame frame).slots.length = 3 := by decide +kernel
  obtain ⟨-, announces, -⟩ := every_packet_well_written.1 datagram _ hread
  have hlayer := announces.layer 16 (by decide)
  rw [announces.length, hslots] at hlayer
  exact ⟨by decide +kernel, _, hread, hlayer⟩

end StreamingAcn.Packet
