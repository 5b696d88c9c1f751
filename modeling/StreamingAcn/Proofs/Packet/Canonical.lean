/-
StreamingAcn.Proofs.Packet.Canonical — which datagrams come back as they were.

Reading a datagram passes over the lengths of its layers, what stands behind the name and what
stands behind the slots, and it mends a name that is no text. Writing the packet again puts the
lengths right, zeros behind the name and nothing behind the slots. So a datagram that is read comes
back as it was if and only if a writer would have put all of this as it is. The name leaves one
case in which something malformed comes back: a full name field that ends in one or two of the three
octets of a replacement character reads as if the character were whole, and is cut off at the same
place when it is written.

Definitions:

* `HoldsRow`: from an offset on a datagram has some fields, one behind the other;
* `IsText`, `KeptName`: octets that are a text, and name fields that come back;
* `Canonical`: the datagrams that come back.

Main statements:

* `holdsRow_iff_of_decode`: most of the fields of a datagram that is read come back in any case;
* `nameField_readName_iff`: which name fields come back;
* `encode_eq_iff_canonical`: which datagrams come back.
-/
import StreamingAcn.Proofs.Packet.Grammar
import Mathlib.Algebra.Ring.Nat
import Mathlib.Data.List.Induction

namespace StreamingAcn

/-- Whether some octets are those of a text. -/
def Text.Utf8.IsText (octets : Octets) : Prop := ∃ text : String, encode text = octets

namespace Packet

open Text.Utf8 (IsText encodeChars)

/-! ## Octets and the numbers that they are -/

theorem number_append (as bs : Octets) :
    number (as ++ bs) = number as * 256 ^ bs.length + number bs := by
  induction bs using List.reverseRecOn with
  | nil => simp [number]
  | append_singleton bs b ih =>
    have hconcat : ∀ l : Octets, number (l ++ [b]) = number l * 256 + b.toNat := fun l => by
      simp [number]
    rw [← List.append_assoc, hconcat, hconcat, ih, List.length_append, List.length_singleton,
      Nat.pow_succ, Nat.add_mul, Nat.mul_assoc, Nat.add_assoc]

theorem number_singleton (b : UInt8) : number [b] = b.toNat := by simp [number]

theorem number_lt (bs : Octets) : number bs < 256 ^ bs.length := by
  induction bs using List.reverseRecOn with
  | nil => simp [number]
  | append_singleton bs b ih =>
    have hb := b.toNat_lt
    rw [number_append, number_singleton, List.length_append, List.length_singleton, Nat.pow_succ]
    omega

/-- Octets of a given length are told by their number. -/
theorem number_inj {as bs : Octets} (hlen : as.length = bs.length) (h : number as = number bs) :
    as = bs := by
  induction as using List.reverseRecOn generalizing bs with
  | nil => exact (List.length_eq_zero_iff.1 hlen.symm).symm
  | append_singleton as a ih =>
    rcases List.eq_nil_or_concat' bs with rfl | ⟨bs, b, rfl⟩
    · simp at hlen
    · have ha := a.toNat_lt
      have hb := b.toNat_lt
      simp only [number_append, number_singleton, List.length_singleton, Nat.pow_one] at h
      have hlast : a = b := UInt8.toNat_inj.1 (by omega)
      have hfront : as = bs := ih (by simpa using hlen) (by omega)
      rw [hlast, hfront]

theorem number_ofWord (w : UInt16) : number (Octets.ofWord w) = w.toNat := by
  have h := w.toNat_lt
  simp only [number, Octets.ofWord, Octets.high, Octets.low, List.foldl_cons, List.foldl_nil,
    UInt8.toNat_ofNat']
  omega

theorem number_ofLong (w : UInt32) : number (Octets.ofLong w) = w.toNat := by
  have h := w.toNat_lt
  simp only [number, Octets.ofLong, List.foldl_cons, List.foldl_nil, UInt8.toNat_ofNat']
  omega

theorem number_lengthField (n : Nat) : number (lengthField n) = 0x7000 + n % 0x1000 := by
  rw [lengthField, number_ofWord, UInt16.toNat_ofNat']
  omega

section Parts

variable {b : Octets} {i : Nat}

theorem length_part {n : Nat} (h : i + n ≤ b.length) : (part b i n).length = n := by
  rw [part, List.length_take, List.length_drop]
  omega

theorem part_add (b : Octets) (i m n : Nat) :
    part b i (m + n) = part b i m ++ part b (i + m) n := by
  rw [part, part, part, List.take_add, List.drop_drop]

/-- Some octets stand at an offset if their number does. -/
theorem part_eq_iff {field : Octets} {n : Nat} (hend : i + n ≤ b.length) (hn : field.length = n) :
    part b i n = field ↔ numberAt b i n = number field := by
  constructor
  · intro h
    rw [numberAt, h]
  · intro h
    exact number_inj ((length_part hend).trans hn.symm) h

theorem part_octet {x : UInt8} (hend : i + 1 ≤ b.length) (h : x.toNat = numberAt b i 1) :
    part b i 1 = [x] :=
  (part_eq_iff hend rfl).2 (h.symm.trans (number_singleton x).symm)

theorem part_word {w : UInt16} (hend : i + 2 ≤ b.length) (h : w.toNat = numberAt b i 2) :
    part b i 2 = Octets.ofWord w :=
  (part_eq_iff hend rfl).2 (h.symm.trans (number_ofWord w).symm)

theorem part_long {w : UInt32} (hend : i + 4 ≤ b.length) (h : w.toNat = numberAt b i 4) :
    part b i 4 = Octets.ofLong w :=
  (part_eq_iff hend rfl).2 (h.symm.trans (number_ofLong w).symm)

/-- Behind the right flags a length field is told by its lower twelve bits. -/
theorem part_eq_lengthField_iff {n : Nat} (hend : i + 2 ≤ b.length)
    (flags : numberAt b i 1 / 16 = 7) :
    part b i 2 = lengthField n ↔ numberAt b i 2 % 0x1000 = n % 0x1000 := by
  have hlow := number_lt (part b (i + 1) 1)
  have hsplit : numberAt b i 2 = numberAt b i 1 * 256 + number (part b (i + 1) 1) := by
    rw [numberAt, part_add b i 1 1, number_append, length_part (by omega), Nat.pow_one, numberAt]
  rw [length_part (by omega)] at hlow
  rw [part_eq_iff hend rfl, number_lengthField]
  omega

end Parts

/-! ## Rows of fields -/

/-- From an offset on a datagram has some fields, one behind the other. -/
def HoldsRow (b : Octets) : Nat → List Octets → Prop
  | _, [] => True
  | i, field :: rest => part b i field.length = field ∧ HoldsRow b (i + field.length) rest

theorem holdsRow_iff {b : Octets} {i : Nat} {row : List Octets} :
    HoldsRow b i row ↔ part b i row.flatten.length = row.flatten := by
  induction row generalizing i with
  | nil => simp [HoldsRow, part]
  | cons field rest ih =>
    rw [HoldsRow, ih, List.flatten_cons, List.length_append, part_add]
    constructor
    · rintro ⟨hfield, hrest⟩
      rw [hfield, hrest]
    · intro h
      refine List.append_inj h ?_
      -- Were the first part cut short, the second would be empty and both together too short.
      have hlength := congrArg List.length h
      simp only [part, List.length_append, List.length_take, List.length_drop] at hlength ⊢
      omega

/-- A packet is written as a datagram that has its fields from the start on, and nothing else. -/
theorem encode_eq_iff_holdsRow {b : Octets} {p : Packet} :
    encode p = b ↔ b.length = headerLength + p.slots.length ∧ HoldsRow b 0 (fields p) := by
  rw [holdsRow_iff, ← encode_eq_flatten, length_encode]
  constructor
  · rintro rfl
    refine ⟨length_encode p, ?_⟩
    rw [part, List.drop_zero, List.take_of_length_le (Nat.le_of_eq (length_encode p))]
  · rintro ⟨hlength, h⟩
    rw [← h, part, List.drop_zero, List.take_of_length_le (Nat.le_of_eq hlength)]

/-- Of a datagram that is read everything in front of the end of the slots comes back, except for
the lengths of the layers and the name. -/
theorem holdsRow_iff_of_decode {b : Octets} {p : Packet} (h : decode b = .ok p) :
    HoldsRow b 0 (fields p) ↔
      part b 16 2 = lengthField (headerLength + p.slots.length - 16) ∧
      part b 38 2 = lengthField (headerLength + p.slots.length - 38) ∧
      part b 44 64 = nameField p.sourceName ∧
      part b 115 2 = lengthField (headerLength + p.slots.length - 115) := by
  have hmet := met_of_decode h
  have hdescribes := describes_of_decode h
  obtain ⟨hpos, hmax, hend⟩ := hmet .count
  obtain ⟨hpreamble, hpostamble⟩ := hmet .preamble
  obtain ⟨hfirst, hstep⟩ := hmet .addressing
  have hlength : 126 ≤ b.length := (hmet .length).1
  have hslots : part b 126 p.slots.length = p.slots := by
    rw [hdescribes.length_slots, ← hdescribes.slots]
  have hcount : part b 123 2 = Octets.ofWord (UInt16.ofNat (p.slots.length + 1)) := by
    refine part_word (by omega) ?_
    rw [UInt16.toNat_ofNat', hdescribes.length_slots]
    omega
  have hnumbered : part b 111 2 = [p.sequenceNumber, p.options] := by
    rw [part_add b 111 1 1, part_octet (by omega) hdescribes.sequenceNumber,
      part_octet (by omega) hdescribes.options]
    rfl
  have hdmp : part b 117 2 = [0x02, 0xa1] := by
    rw [part_add b 117 1 1, part_octet (x := 0x02) (by omega) (hmet .dmpVector).symm,
      part_octet (x := 0xa1) (by omega) (hmet .addressType).symm]
    rfl
  have hid : part b 4 12 = identifierOctets := hmet .identifier
  have hidLength : identifierOctets.length = 12 := rfl
  have hlengthField : ∀ n, (lengthField n).length = 2 := fun _ => rfl
  have hwidth : nameWidth = 64 := rfl
  simp only [fields, HoldsRow, Octets.length_ofWord, Octets.length_ofLong, hidLength, hlengthField,
    p.cid.length_octets, length_nameField, hwidth, List.length_cons, List.length_nil, Nat.reduceAdd,
    Nat.zero_add, hid, hnumbered, hdmp, hcount, hslots, ← hdescribes.cid,
    part_word (w := 0x0010) (by omega) hpreamble.symm,
    part_word (w := 0) (by omega) hpostamble.symm,
    part_long (w := 4) (by omega) (hmet .rootVector).symm,
    part_long (w := 2) (by omega) (hmet .framingVector).symm,
    part_word (w := 0) (by omega) hfirst.symm, part_word (w := 1) (by omega) hstep.symm,
    part_octet (by omega) hdescribes.priority, part_word (by omega) hdescribes.syncAddress,
    part_word (by omega) hdescribes.universeId, part_octet (by omega) hdescribes.startCode,
    true_and, and_true]

/-! ## Name fields -/

/-- A name field that comes back when it is read and written: some octets in front of the first
zero, at most 63, and zeros from there on. The octets are those of a text; where they fill the
field, they may also be those of a text and the first one or two of a replacement character. -/
def KeptName (field : Octets) : Prop :=
  ∃ k ≤ 63, 0 ∉ field.take k ∧ field.drop k = List.replicate (64 - k) 0 ∧
    (IsText (field.take k) ∨ k = 63 ∧ ∃ front, IsText front ∧
      (field.take k = front ++ [0xEF] ∨ field.take k = front ++ [0xEF, 0xBF]))

theorem zero_not_mem_encodeChars {cs : List Char} (h : '\u0000' ∉ cs) : 0 ∉ encodeChars cs := by
  intro h0
  obtain ⟨c, hc, h0⟩ := List.mem_flatMap.1 h0
  exact h ((Text.Utf8.zero_mem_encodeChar_iff c).1 h0 ▸ hc)

/-- The name in front of the zeros of a field. -/
theorem readName_append_zeros {text : Octets} (h : 0 ∉ text) (n : Nat) :
    readName (text ++ List.replicate n 0) = Text.Utf8.decodeLossy text := by
  have hall : ∀ x ∈ text, decide (x ≠ 0) = true := fun x hx =>
    decide_eq_true fun h0 => h (h0 ▸ hx)
  rw [readName, List.takeWhile_append_of_pos hall, List.takeWhile_replicate, if_neg (by decide),
    List.append_nil]

theorem nameField_of_take {name : String} {text : Octets}
    (h : (Text.Utf8.encode name).take 63 = text) :
    nameField name = text ++ List.replicate (64 - text.length) 0 := by
  rw [nameField]
  simp only [nameWidth, Nat.reduceSub, h]

/-- A text that is followed by the beginning of a replacement character reads as if the character
were whole, and is cut off at the same place when it is written. -/
theorem nameField_decodeLossy_of_cut {front : String} {tail : Octets}
    (htail : tail = [0xEF] ∨ tail = [0xEF, 0xBF])
    (hlength : (Text.Utf8.encode front ++ tail).length = 63) :
    (Text.Utf8.encode (Text.Utf8.decodeLossy (Text.Utf8.encode front ++ tail))).take 63 =
      Text.Utf8.encode front ++ tail := by
  have hread : Text.Utf8.decodeLossy tail = String.ofList [Text.Utf8.replacement] := by
    rcases htail with rfl | rfl <;> decide +kernel
  have hwhole : encodeChars [Text.Utf8.replacement] = [0xEF, 0xBF, 0xBD] := by decide +kernel
  have hcut : [0xEF, 0xBF, 0xBD].take tail.length = tail := by
    rcases htail with rfl | rfl <;> rfl
  rw [List.length_append] at hlength
  rw [Text.Utf8.encode_eq front, Text.Utf8.decodeLossy_encodeChars_append, hread,
    ← String.ofList_append, Text.Utf8.encode_eq, String.toList_ofList,
    Text.Utf8.encodeChars_append, hwhole, List.take_append, ← Text.Utf8.encode_eq,
    List.take_of_length_le (by omega), ← hlength, Nat.add_sub_cancel_left, hcut]

/-- Which name fields come back when they are read and written. -/
theorem nameField_readName_iff {field : Octets} :
    nameField (readName field) = field ↔ KeptName field := by
  constructor
  · intro h
    generalize hname : readName field = name at h
    have hzero : '\u0000' ∉ name.toList := by
      have hnot := zero_not_mem_readName name
      rwa [h, hname] at hnot
    have hread : Text.Utf8.decodeLossy ((encodeChars name.toList).take 63) =
        String.ofList name.toList := by
      have hsame := readName_nameField_eq name
      rw [h, hname, takeWhile_of_zero_not_mem hzero] at hsame
      rw [← hsame, String.ofList_toList]
    generalize htext : (encodeChars name.toList).take 63 = text at hread
    have hle : text.length ≤ 63 := htext ▸ List.length_take_le _ _
    have hfield := (nameField_of_take htext).symm.trans h
    have htake : field.take text.length = text := by rw [← hfield, List.take_left]
    refine ⟨text.length, hle, ?_, ?_, ?_⟩
    · rw [htake, ← htext]
      exact fun h0 => zero_not_mem_encodeChars hzero (List.mem_of_mem_take h0)
    · rw [← hfield, List.drop_left]
    · rw [htake]
      rw [← htext] at hread
      rcases (Text.Utf8.decodeLossy_take_eq_iff _ _).1 hread with hfits | ⟨front, hcs, hlt, hgt⟩
      · rw [List.take_of_length_le hfits] at htext
        exact .inl ⟨name, htext⟩
      · -- The name is cut inside of its last character, which is a replacement character.
        have hwhole : encodeChars [Text.Utf8.replacement] = [0xEF, 0xBF, 0xBD] := by
          decide +kernel
        have hfront : Text.Utf8.encode (String.ofList front) = encodeChars front := by
          rw [Text.Utf8.encode_eq, String.toList_ofList]
        rw [hcs, Text.Utf8.encodeChars_append, hwhole, List.take_append,
          List.take_of_length_le (Nat.le_of_lt hlt)] at htext
        rcases (by omega : 63 - (encodeChars front).length = 1 ∨
          63 - (encodeChars front).length = 2) with hone | htwo
        · rw [hone] at htext
          refine .inr ⟨?_, encodeChars front, ⟨_, hfront⟩, .inl htext.symm⟩
          rw [← htext, List.length_append, List.length_take, List.length_cons, List.length_cons]
          omega
        · rw [htwo] at htext
          refine .inr ⟨?_, encodeChars front, ⟨_, hfront⟩, .inr htext.symm⟩
          rw [← htext, List.length_append, List.length_take, List.length_cons, List.length_cons]
          omega
  · rintro ⟨k, hk, hzero, hdrop, htext⟩
    have hfield : field = field.take k ++ List.replicate (64 - k) 0 := by
      rw [← hdrop, List.take_append_drop]
    have hlength : (field.take k).length = k := by
      have hboth := congrArg List.length hdrop
      rw [List.length_drop, List.length_replicate] at hboth
      rw [List.length_take]
      omega
    generalize field.take k = text at *
    rw [hfield, readName_append_zeros hzero]
    have hwritten : (Text.Utf8.encode (Text.Utf8.decodeLossy text)).take 63 = text := by
      rcases htext with ⟨name, rfl⟩ | ⟨hfull, front, ⟨name, rfl⟩, htail⟩
      · rw [Text.Utf8.decodeLossy_encode, List.take_of_length_le (hlength ▸ hk)]
      · rcases htail with rfl | rfl
        · exact nameField_decodeLossy_of_cut (.inl rfl) (hlength.trans hfull)
        · exact nameField_decodeLossy_of_cut (.inr rfl) (hlength.trans hfull)
    rw [nameField_of_take hwritten, hlength]

/-! ## Whole datagrams -/

/-- A datagram that a writer could have written: nothing follows the announced slots, every layer
announces the number of octets from its start to the end, and the name field comes back. -/
structure Canonical (b : Octets) : Prop where
  length : b.length = 125 + numberAt b 123 2
  rootLength : numberAt b 16 2 % 0x1000 = b.length - 16
  framingLength : numberAt b 38 2 % 0x1000 = b.length - 38
  dmpLength : numberAt b 115 2 % 0x1000 = b.length - 115
  name : KeptName (part b 44 64)

/-- A datagram that is read comes back as it was if and only if it is canonical. -/
theorem encode_eq_iff_canonical {b : Octets} {p : Packet} (h : decode b = .ok p) :
    encode p = b ↔ Canonical b := by
  have hmet := met_of_decode h
  have hdescribes := describes_of_decode h
  obtain ⟨hge, hle⟩ := hmet .length
  obtain ⟨hpos, -, -⟩ := hmet .count
  have hslots := hdescribes.length_slots
  have hname : nameField p.sourceName = part b 44 64 ↔ KeptName (part b 44 64) := by
    rw [hdescribes.sourceName]
    exact nameField_readName_iff
  rw [encode_eq_iff_holdsRow, holdsRow_iff_of_decode h,
    part_eq_lengthField_iff (by omega) (hmet .rootFlags),
    part_eq_lengthField_iff (by omega) (hmet .framingFlags),
    part_eq_lengthField_iff (by omega) (hmet .dmpFlags), eq_comm (a := part b 44 64), hname,
    headerLength]
  -- A datagram is too short for its length to be cut to twelve bits.
  constructor
  · rintro ⟨hlength, hroot, hframing, hkept, hdmp⟩
    exact ⟨by omega, by omega, by omega, by omega, hkept⟩
  · rintro ⟨hlength, hroot, hframing, hdmp, hkept⟩
    exact ⟨by omega, by omega, by omega, hkept, by omega⟩

/-- A name field of 62 letters and the first octet of a replacement character is no text, and comes
back all the same. -/
theorem encode_eq_iff_canonical_cut_name :
    let blank := encode { universeId := 1, slots := [1, 2, 3] }
    let datagram := blank.take 44 ++ (List.replicate 62 0x61 ++ [0xEF]) ++ blank.drop 107
    ∃ p, decode datagram = .ok p ∧ encode p = datagram := by
  intro blank datagram
  let frame : Frame := ⟨datagram, by decide +kernel, by decide +kernel⟩
  have hread : decode datagram = .ok (ofFrame frame) :=
    decode_of_sound (f := frame) (by decide +kernel)
  have hletters : IsText (List.replicate 62 0x61) :=
    ⟨String.ofList (List.replicate 62 'a'), by decide +kernel⟩
  have hkept : KeptName (part datagram 44 64) :=
    ⟨63, by decide, by decide +kernel, by decide +kernel,
      .inr ⟨rfl, _, hletters, .inl (by decide +kernel)⟩⟩
  exact ⟨_, hread, (encode_eq_iff_canonical hread).2
    ⟨by decide +kernel, by decide +kernel, by decide +kernel, by decide +kernel, hkept⟩⟩

end Packet

end StreamingAcn
