/-
StreamingAcn.Proofs.Packet.Layout — the fields of a written packet, each at its offset.

A packet is written as a row of fields and read at fixed offsets. The two agree because every field
in front of the slots has the same length in all packets: a field stands behind the lengths of those
before it, and a frame reads at an offset what stands there.

Definitions:

* `fields`, `offset`: the fields of a packet in their order, and how far in each of them stands;
* `StandsAt`: some octets have a field at an offset.

Main statements:

* `stands_field`: where each field of a packet stands;
* `fault?_written`: a written packet meets every requirement on a frame;
* `ofFrame_written`: and is read back, with the name that its name field holds.
-/
import StreamingAcn.Packet.Wire

namespace StreamingAcn.Packet

/-! ## Fields at offsets -/

/-- Some octets have a field at an offset. -/
def StandsAt (octets : Octets) (i : Nat) (field : Octets) : Prop :=
  ∃ before after, octets = before ++ (field ++ after) ∧ before.length = i

/-- In a row of fields each one stands behind all those in front of it. -/
theorem standsAt_flatten (row : List Octets) (k : Nat) (hk : k < row.length) :
    StandsAt row.flatten (row.take k).flatten.length row[k] := by
  refine ⟨(row.take k).flatten, (row.drop (k + 1)).flatten, ?_, rfl⟩
  rw [← List.flatten_cons, ← List.drop_eq_getElem_cons hk, ← List.flatten_append,
    List.take_append_drop]

section Reading

variable {f : Frame} {i : Nat}

theorem span_of_standsAt {field : Octets} {n : Nat} (h : StandsAt f.octets i field)
    (hn : field.length = n) : f.span i n = field := by
  obtain ⟨before, after, ho, rfl⟩ := h
  rw [Frame.span, ho, List.drop_left, ← hn, List.take_left]

theorem octet_of_standsAt {b : UInt8} {rest : Octets} (h : StandsAt f.octets i (b :: rest))
    (hi : i < headerLength) : f.octet i hi = b := by
  obtain ⟨before, after, ho, rfl⟩ := h
  rw [Frame.octet, List.get_eq_getElem]
  simp only [ho, List.cons_append, List.getElem_append_right (Nat.le_refl _), Nat.sub_self,
    List.getElem_cons_zero]

theorem StandsAt.tail {b : UInt8} {rest octets : Octets} (h : StandsAt octets i (b :: rest)) :
    StandsAt octets (i + 1) rest := by
  obtain ⟨before, after, ho, rfl⟩ := h
  refine ⟨before ++ [b], after, ?_, by rw [List.length_append, List.length_singleton]⟩
  rw [ho, List.append_assoc]
  rfl

theorem word_of_standsAt {w : UInt16} (h : StandsAt f.octets i (Octets.ofWord w))
    (hi : i + 1 < headerLength) : f.word i hi = w := by
  rw [Frame.word, octet_of_standsAt h, octet_of_standsAt h.tail, Octets.joinWord_high_low]

theorem long_of_standsAt {w : UInt32} (h : StandsAt f.octets i (Octets.ofLong w))
    (hi : i + 3 < headerLength) : f.long i hi = w := by
  rw [Frame.long, octet_of_standsAt h, octet_of_standsAt h.tail, octet_of_standsAt h.tail.tail,
    octet_of_standsAt h.tail.tail.tail, Octets.joinLong_octets]

/-- The twelve bits of a layer's length do not reach the flag bits in front of them. -/
theorem high_lengthField (n : Nat) :
    Octets.high (UInt16.ofNat (0x7000 + n % 0x1000)) >>> 4 = 7 := by
  apply UInt8.toNat_inj.1
  rw [Octets.high, UInt8.toNat_shiftRight, UInt8.toNat_ofNat', UInt16.toNat_ofNat',
    Nat.shiftRight_eq_div_pow]
  simp only [UInt8.reduceToNat, Nat.reduceMod, Nat.reducePow]
  omega

theorem flagBits_of_standsAt {n : Nat} (h : StandsAt f.octets i (lengthField n))
    (hi : i < headerLength) : f.flagBits i hi = 7 := by
  rw [Frame.flagBits, octet_of_standsAt h, high_lengthField]

end Reading

/-! ## The row of a packet's fields -/

theorem length_nameField (name : String) : (nameField name).length = nameWidth := by
  have h := List.length_take_le (nameWidth - 1) (Text.Utf8.encode name)
  rw [nameField, List.length_append, List.length_replicate]
  simp only [nameWidth] at h ⊢
  omega

/-- The fields of a packet in the order in which they are written. -/
def fields (p : Packet) : List Octets :=
  let total := headerLength + p.slots.length
  [ Octets.ofWord 0x0010, Octets.ofWord 0, identifierOctets,
    lengthField (total - 16), Octets.ofLong 4, p.cid.octets,
    lengthField (total - 38), Octets.ofLong 2, nameField p.sourceName, [p.priority],
    Octets.ofWord p.syncAddress, [p.sequenceNumber, p.options], Octets.ofWord p.universeId,
    lengthField (total - 115), [0x02, 0xa1], Octets.ofWord 0, Octets.ofWord 1,
    Octets.ofWord (UInt16.ofNat (p.slots.length + 1)), [p.startCode], p.slots ]

theorem encode_eq_flatten (p : Packet) : encode p = (fields p).flatten := by
  unfold encode fields
  simp only [List.flatten_cons, List.flatten_nil, List.append_assoc]
  rw [List.append_nil]

/-- The lengths of the fields in front of the slots. -/
def widths : List Nat := [2, 2, 12, 2, 4, 16, 2, 4, nameWidth, 1, 2, 2, 2, 2, 2, 2, 2, 2, 1]

/-- The offset of a field: the lengths of those in front of it. -/
def offset (k : Nat) : Nat := (widths.take k).foldr (· + ·) 0

theorem map_length_fields (p : Packet) :
    (fields p).map List.length = widths ++ [p.slots.length] := by
  have hid : identifierOctets.length = 12 := rfl
  have hlen : ∀ n, (lengthField n).length = 2 := fun _ => rfl
  simp only [fields, widths, List.map_cons, List.map_nil, Octets.length_ofWord, hid, hlen,
    Octets.length_ofLong, p.cid.length_octets, length_nameField, List.length_cons, List.length_nil,
    List.cons_append, List.nil_append]

/-- A field of a packet stands at its offset. -/
theorem stands_field {p : Packet} {field : Octets} {i : Nat} (k : Nat)
    (hf : (fields p)[k]? = some field) (hi : offset k = i) (hk : k ≤ widths.length) :
    StandsAt (encode p) i field := by
  obtain ⟨hk', rfl⟩ := List.getElem?_eq_some_iff.1 hf
  have hlen : ((fields p).take k).flatten.length = i := by
    rw [List.length_flatten, List.map_take, map_length_fields, List.take_append_of_le_length hk, ← hi]
    rfl
  rw [encode_eq_flatten, ← hlen]
  exact standsAt_flatten (fields p) k hk'

theorem length_encode (p : Packet) : (encode p).length = headerLength + p.slots.length := by
  rw [encode_eq_flatten, List.length_flatten, map_length_fields, List.sum_append,
    List.sum_singleton]
  rfl

/-! ## Reading a written packet -/

section Written

variable {f : Frame} {p : Packet}

theorem stands_of_written (h : f.octets = encode p) {field : Octets} {i : Nat} (k : Nat)
    (hf : (fields p)[k]? = some field) (hi : offset k = i)
    (hk : k ≤ widths.length := by decide) : StandsAt f.octets i field :=
  h ▸ stands_field k hf hi hk

theorem propertyCount_written (h : f.octets = encode p) :
    f.propertyCount.toNat = p.slots.length + 1 := by
  have hle := p.slots_le
  rw [Frame.propertyCount, word_of_standsAt (stands_of_written h (i := 123) 17 rfl rfl),
    UInt16.toNat_ofNat']
  rw [maxSlots] at hle
  omega

theorem count_written (h : f.octets = encode p) :
    1 ≤ f.propertyCount ∧ f.propertyCount ≤ maxProperties ∧
      125 + f.propertyCount.toNat ≤ f.octets.length := by
  have hcount := propertyCount_written h
  have hle := p.slots_le
  refine ⟨?_, ?_, ?_⟩
  · rw [UInt16.le_iff_toNat_le, hcount]
    exact Nat.le_add_left 1 _
  · rw [UInt16.le_iff_toNat_le, hcount]
    exact Nat.succ_le_succ hle
  · rw [hcount, h, length_encode, headerLength]
    omega

/-- A written packet meets every requirement on a frame. -/
theorem fault?_written (h : f.octets = encode p) : f.fault? = none := by
  have hprop := count_written h
  rw [Frame.fault?, Option.map_eq_none_iff, List.find?_eq_none]
  have hpreamble : f.word 0 = 0x0010 ∧ f.word 2 = 0 :=
    ⟨word_of_standsAt (stands_of_written h 0 rfl rfl) _,
      word_of_standsAt (stands_of_written h 1 rfl rfl) _⟩
  have hid : f.span 4 12 = identifierOctets := span_of_standsAt (stands_of_written h 2 rfl rfl) rfl
  have hroot : f.flagBits 16 = 7 := flagBits_of_standsAt (stands_of_written h 3 rfl rfl) _
  have hrootVector : f.long 18 = 4 := long_of_standsAt (stands_of_written h 4 rfl rfl) _
  have hframing : f.flagBits 38 = 7 := flagBits_of_standsAt (stands_of_written h 6 rfl rfl) _
  have hframingVector : f.long 40 = 2 := long_of_standsAt (stands_of_written h 7 rfl rfl) _
  have hdmp : f.flagBits 115 = 7 := flagBits_of_standsAt (stands_of_written h 13 rfl rfl) _
  have hvector := stands_of_written h (i := 117) 14 rfl rfl
  have haddressing : f.word 119 = 0 ∧ f.word 121 = 1 :=
    ⟨word_of_standsAt (stands_of_written h 15 rfl rfl) _,
      word_of_standsAt (stands_of_written h 16 rfl rfl) _⟩
  simp only [Frame.requirements, List.forall_mem_cons, List.not_mem_nil, false_implies,
    implies_true, hpreamble, hid, hroot, hrootVector, hframing, hframingVector, hdmp,
    octet_of_standsAt hvector, octet_of_standsAt hvector.tail, haddressing, hprop, and_self,
    decide_true, Bool.not_true, Bool.false_eq_true, not_false_eq_true]

/-- A written packet is read back, with the name that its name field holds. -/
theorem ofFrame_written (h : f.octets = encode p) :
    ofFrame f = { p with sourceName := readName (nameField p.sourceName) } := by
  have hcid : f.cid = p.cid :=
    Cid.ext (span_of_standsAt (stands_of_written h 5 rfl rfl) p.cid.length_octets)
  have hslots : f.slots = p.slots := by
    rw [Frame.slots, propertyCount_written h]
    exact span_of_standsAt (stands_of_written h 19 rfl rfl) rfl
  have huniverse : f.word 113 = p.universeId := word_of_standsAt (stands_of_written h 12 rfl rfl) _
  have hname : f.span 44 nameWidth = nameField p.sourceName :=
    span_of_standsAt (stands_of_written h 8 rfl rfl) (length_nameField _)
  have hpriority : f.octet 108 = p.priority := octet_of_standsAt (stands_of_written h 9 rfl rfl) _
  have hsync : f.word 109 = p.syncAddress := word_of_standsAt (stands_of_written h 10 rfl rfl) _
  have hnumbered := stands_of_written h (i := 111) 11 rfl rfl
  have hstart : f.octet 125 = p.startCode := octet_of_standsAt (stands_of_written h 18 rfl rfl) _
  simp only [ofFrame, hcid, hslots, huniverse, hname, hpriority, hsync, hstart,
    octet_of_standsAt hnumbered, octet_of_standsAt hnumbered.tail]

end Written

end StreamingAcn.Packet
