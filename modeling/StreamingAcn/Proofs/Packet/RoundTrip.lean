/-
StreamingAcn.Proofs.Packet.RoundTrip — what comes back of a packet that is written and read.

Every packet can be read back from what is written of it, and nothing but the source name may have
changed. The name field keeps 63 octets and its reader stops at the first zero octet, so a name that
is too long or has a zero in it comes back shorter, with one exception. Where the cut falls inside
the last character of the name, that character comes back as a replacement character; if it was one
already, a name of 64 or 65 octets comes back whole. So what came back once comes back whole for
ever: a packet changes the first time that it is written and read, or never.

Main statements:

* `decode_encode`: what comes back of any packet, and which packets come back as they are;
* `settles_when_rewritten`: what comes back comes back as it is the next time.
-/
import StreamingAcn.Proofs.Packet.Layout
import StreamingAcn.Proofs.Text.Utf8
import Mathlib.Data.List.TakeWhile

namespace StreamingAcn.Packet

/-! ## The source name -/

/-- The name field is read up to the first zero octet among the 63 that it keeps of the name. -/
theorem readName_nameField (name : String) :
    readName (nameField name) =
      Text.Utf8.decodeLossy (((Text.Utf8.encode name).take 63).takeWhile (· ≠ 0)) := by
  rw [readName, nameField]
  simp only [nameWidth]
  generalize (Text.Utf8.encode name).take (64 - 1) = kept
  rw [List.takeWhile_append]
  split
  · next hall =>
    rw [List.takeWhile_replicate, if_neg (by decide), List.append_nil]
    congr 1
    exact ((List.takeWhile_sublist _).eq_of_length hall).symm
  · rfl

/-- The name that comes back, told from the characters of the one that was written. -/
theorem readName_nameField_eq (name : String) :
    readName (nameField name) =
      Text.Utf8.decodeLossy
        ((Text.Utf8.encodeChars (name.toList.takeWhile (· ≠ '\u0000'))).take 63) := by
  rw [readName_nameField, ← List.take_takeWhile, Text.Utf8.encode_eq,
    Text.Utf8.takeWhile_encodeChars]

/-- No character of number zero is read from a name field. -/
theorem zero_not_mem_readName (name : String) :
    '\u0000' ∉ (readName (nameField name)).toList := by
  intro h
  rw [readName_nameField_eq] at h
  rcases Text.Utf8.mem_decodeLossy_take h with h | h
  · have hne := List.mem_takeWhile_imp h
    simp at hne
  · exact absurd h (by decide)

theorem takeWhile_of_zero_not_mem {cs : List Char} (h : '\u0000' ∉ cs) :
    cs.takeWhile (· ≠ '\u0000') = cs := by
  rw [List.takeWhile_eq_self_iff]
  intro c hc
  exact decide_eq_true fun h0 => h (h0 ▸ hc)

/-- The name that comes back comes back as it is the next time. -/
theorem readName_nameField_stable (name : String) :
    readName (nameField (readName (nameField name))) = readName (nameField name) := by
  rw [readName_nameField_eq (readName (nameField name)),
    takeWhile_of_zero_not_mem (zero_not_mem_readName name), ← Text.Utf8.encode_eq,
    readName_nameField_eq name]
  exact Text.Utf8.decodeLossy_take_stable _ 63

theorem readName_nameField_eq_iff (name : String) :
    readName (nameField name) = name ↔
      '\u0000' ∉ name.toList ∧ (name.utf8ByteSize ≤ 63 ∨
        ∃ front : String, (front.utf8ByteSize = 61 ∨ front.utf8ByteSize = 62) ∧
          name = front ++ "\uFFFD") := by
  by_cases hzero : '\u0000' ∈ name.toList
  · have hne : readName (nameField name) ≠ name := by
      intro h
      exact zero_not_mem_readName name (h.symm ▸ hzero)
    exact iff_of_false hne fun h => h.1 hzero
  · have hall := takeWhile_of_zero_not_mem hzero
    have hcut := Text.Utf8.decodeLossy_take_eq_iff name.toList 63
    rw [← Text.Utf8.encode_eq, Text.Utf8.length_encode, String.ofList_toList] at hcut
    rw [readName_nameField_eq, hall, ← Text.Utf8.encode_eq, hcut, and_iff_right hzero]
    refine or_congr_right ⟨?_, ?_⟩
    · rintro ⟨front, he, hlt, hgt⟩
      refine ⟨String.ofList front, ?_, ?_⟩
      · rw [← Text.Utf8.length_encode, Text.Utf8.encode_eq, String.toList_ofList]
        omega
      · rw [← String.ofList_toList (s := name), he, String.ofList_append]
        rfl
    · rintro ⟨front, hsize, rfl⟩
      refine ⟨front.toList, String.toList_append, ?_⟩
      clear hcut
      rw [← Text.Utf8.encode_eq, Text.Utf8.length_encode]
      omega

/-! ## The whole packet -/

/-- A frame without a fault is read. -/
theorem decode_of_sound {f : Frame} (h : f.fault? = none) : decode f.octets = .ok (ofFrame f) := by
  obtain ⟨octets, hge, hle⟩ := f
  have hshort : ¬ octets.length < headerLength := Nat.not_lt.2 hge
  have hlong : ¬ octets.length > maxLength := Nat.not_lt.2 hle
  simp only [decode, dif_neg hshort, dif_neg hlong, h]

theorem headerLength_le_length_encode (p : Packet) : headerLength ≤ (encode p).length := by
  rw [length_encode]
  exact Nat.le_add_right headerLength p.slots.length

theorem length_encode_le_maxLength (p : Packet) : (encode p).length ≤ maxLength := by
  have hle : p.slots.length ≤ 512 := p.slots_le
  have hmax : maxLength = headerLength + 512 := rfl
  rw [length_encode, hmax]
  exact Nat.add_le_add_left hle headerLength

/-- The datagram of a packet as a frame. -/
def frame (p : Packet) : Frame :=
  ⟨encode p, headerLength_le_length_encode p, length_encode_le_maxLength p⟩

theorem decode_written (p : Packet) :
    decode (encode p) = .ok { p with sourceName := readName (nameField p.sourceName) } := by
  have h : (frame p).octets = encode p := rfl
  rw [← h, decode_of_sound (fault?_written h), ofFrame_written h]

/-- Every packet is read back from its octets, with the text in front of the first zero among the
first 63 octets of its name for a name. It comes back as it was exactly if the name has no zero in
it and either fits the field or ends in a replacement character that the cut falls into. -/
theorem decode_encode (p : Packet) :
    decode (encode p) =
        .ok { p with
          sourceName :=
            Text.Utf8.decodeLossy
              (((Text.Utf8.encode p.sourceName).take 63).takeWhile (· ≠ 0)) } ∧
      (decode (encode p) = .ok p ↔
        '\u0000' ∉ p.sourceName.toList ∧ (p.sourceName.utf8ByteSize ≤ 63 ∨
          ∃ front : String, (front.utf8ByteSize = 61 ∨ front.utf8ByteSize = 62) ∧
            p.sourceName = front ++ "\uFFFD")) := by
  have hname := readName_nameField_eq_iff p.sourceName
  have hdecode := decode_written p
  refine ⟨?_, ?_⟩
  · rw [hdecode, readName_nameField]
  · rw [← hname, hdecode, Except.ok.injEq]
    constructor
    · intro h
      have hsame := congrArg Packet.sourceName h
      exact hsame
    · intro h
      rw [h]

/-! ## A second pass -/

/-- A packet that may come back with another name when it is written and read, and with nothing else
changed; what comes back then comes back as it is. -/
def SettlesInOnePass (p : Packet) : Prop :=
  ∃ q : Packet, decode (encode p) = .ok q ∧ q = { p with sourceName := q.sourceName } ∧
    decode (encode q) = .ok q

theorem settlesInOnePass (p : Packet) : SettlesInOnePass p := by
  refine ⟨{ p with sourceName := readName (nameField p.sourceName) }, decode_written p, rfl, ?_⟩
  rw [decode_written, readName_nameField_stable]

/-- A packet that was read from a datagram, or put together from any fields and data, settles the
first time that it is written and read. -/
theorem settles_when_rewritten :
    (∀ (datagram : Octets) (p : Packet), decode datagram = .ok p → SettlesInOnePass p) ∧
      ∀ (fields : Packet) (data : Octets), SettlesInOnePass (fields.withSlots data) :=
  ⟨fun _ p _ => settlesInOnePass p, fun fields data => settlesInOnePass (fields.withSlots data)⟩

/-- A name field of one letter and 62 octets that begin no character is read as 187 octets of name.
Of these the first 63 are written, the last two of them a part of a replacement character, and so
64 are read, which come back from then on. -/
theorem settles_when_rewritten_cut_in_replacement :
    let blank := encode { universeId := 1 }
    let datagram := blank.take 44 ++ (0x61 :: List.replicate 62 0xFF) ++ blank.drop 107
    ∃ p, decode datagram = .ok p ∧ p.sourceName.utf8ByteSize = 187 ∧
      ∃ q, decode (encode p) = .ok q ∧ q.sourceName.utf8ByteSize = 64 ∧
        decode (encode q) = .ok q := by
  intro blank datagram
  let frame : Frame := ⟨datagram, by decide +kernel, by decide +kernel⟩
  have hread : decode datagram = .ok (ofFrame frame) :=
    decode_of_sound (f := frame) (by decide +kernel)
  obtain ⟨q, hq, -, hagain⟩ := settles_when_rewritten.1 datagram _ hread
  refine ⟨ofFrame frame, hread, by decide +kernel, q, hq, ?_, hagain⟩
  rw [decode_written, Except.ok.injEq] at hq
  rw [← hq]
  decide +kernel

end StreamingAcn.Packet
