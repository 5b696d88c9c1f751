/-
StreamingAcn.Proofs.Packet.Grammar — which datagrams are data packets, and what they say.

A data packet is told by twelve requirements on the numbers and octets at fixed offsets, looked at
in order: a datagram that meets all of them is read, one that does not is refused with the fault of
the first that it fails. What is read stands at fixed offsets too. The lengths of the layers, the
name behind its first zero and whatever follows the announced slots are in none of this, so they
can be changed at will.

Definitions:

* `numberAt`, `part`: what stands at an offset of a datagram;
* `Requirement`: the requirements in their order, what meets them, and the fault of what does not;
* `Describes`: what a datagram says of a packet;
* `Agree`: datagrams that differ at most in what is not read.

Main statements:

* `decode_of_failed`: a datagram is refused for the first requirement that it fails;
* `describes_of_decode`: a packet is what its datagram says;
* `decode_of_agree`: datagrams that agree hold the same packet.
-/
import StreamingAcn.Proofs.Packet.Bounds
import StreamingAcn.Proofs.Packet.RoundTrip

namespace StreamingAcn.Packet

/-! ## Numbers in a datagram -/

/-- The `n` octets of a datagram from an offset on. -/
def part (b : Octets) (i n : Nat) : Octets := (b.drop i).take n

/-- The number that some octets are, the first of them highest. -/
def number (octets : Octets) : Nat := octets.foldl (fun n b => n * 256 + b.toNat) 0

/-- The number of `n` octets at an offset. -/
def numberAt (b : Octets) (i n : Nat) : Nat := number (part b i n)

/-! ## Requirements -/

/-- What a datagram has to satisfy to be a data packet. -/
inductive Requirement
  | length
  | preamble
  | identifier
  | rootFlags
  | rootVector
  | framingFlags
  | framingVector
  | dmpFlags
  | dmpVector
  | addressType
  | addressing
  | count
  deriving DecidableEq

namespace Requirement

/-- The requirements on what stands in the headers, in the order in which they are looked at. -/
def onHeaders : List Requirement :=
  [preamble, identifier, rootFlags, rootVector, framingFlags, framingVector, dmpFlags, dmpVector,
    addressType, addressing, count]

/-- All requirements in the order in which they are looked at. -/
def inOrder : List Requirement := length :: onHeaders

/-- Whether a datagram meets a requirement. -/
def Met (b : Octets) : Requirement → Prop
  | length => 126 ≤ b.length ∧ b.length ≤ 638
  | preamble => numberAt b 0 2 = 0x0010 ∧ numberAt b 2 2 = 0x0000
  | identifier =>
    part b 4 12 = [0x41, 0x53, 0x43, 0x2d, 0x45, 0x31, 0x2e, 0x31, 0x37, 0x00, 0x00, 0x00]
  | rootFlags => numberAt b 16 1 / 16 = 7
  | rootVector => numberAt b 18 4 = 4
  | framingFlags => numberAt b 38 1 / 16 = 7
  | framingVector => numberAt b 40 4 = 2
  | dmpFlags => numberAt b 115 1 / 16 = 7
  | dmpVector => numberAt b 117 1 = 2
  | addressType => numberAt b 118 1 = 0xa1
  | addressing => numberAt b 119 2 = 0 ∧ numberAt b 121 2 = 1
  | count => 1 ≤ numberAt b 123 2 ∧ numberAt b 123 2 ≤ 513 ∧ 125 + numberAt b 123 2 ≤ b.length

instance (b : Octets) : DecidablePred (Met b) := by
  intro r
  cases r <;> unfold Met <;> infer_instance

/-- The fault of a datagram that does not meet a requirement: what was found in its place. -/
def fault (b : Octets) : Requirement → Fault
  | length => if b.length < 126 then .truncated b.length else .tooLong b.length
  | preamble => .preamble
  | identifier => .identifier
  | rootFlags => .flags .root (UInt8.ofNat (numberAt b 16 1 / 16))
  | rootVector => .rootVector (UInt32.ofNat (numberAt b 18 4))
  | framingFlags => .flags .framing (UInt8.ofNat (numberAt b 38 1 / 16))
  | framingVector => .framingVector (UInt32.ofNat (numberAt b 40 4))
  | dmpFlags => .flags .dmp (UInt8.ofNat (numberAt b 115 1 / 16))
  | dmpVector => .dmpVector (UInt8.ofNat (numberAt b 117 1))
  | addressType => .addressType (UInt8.ofNat (numberAt b 118 1))
  | addressing =>
    .addressing (UInt16.ofNat (numberAt b 119 2)) (UInt16.ofNat (numberAt b 121 2))
  | count => .propertyCount (UInt16.ofNat (numberAt b 123 2)) b.length

/-- Whether a requirement is the first that a datagram fails. -/
def FirstFailed (b : Octets) (r : Requirement) : Prop :=
  ¬ r.Met b ∧ ∃ before after, inOrder = before ++ r :: after ∧ ∀ q ∈ before, q.Met b

/-- The first requirement that a datagram fails. -/
def firstFailed? (b : Octets) : Option Requirement := inOrder.find? fun r => !decide (r.Met b)

theorem mem_inOrder (r : Requirement) : r ∈ inOrder := by
  cases r <;> decide

theorem firstFailed?_eq_some_iff {b : Octets} {r : Requirement} :
    firstFailed? b = some r ↔ FirstFailed b r := by
  rw [firstFailed?, List.find?_eq_some_iff_append, FirstFailed]
  simp

theorem firstFailed?_eq_none_iff {b : Octets} : firstFailed? b = none ↔ ∀ r, Met b r := by
  rw [firstFailed?, List.find?_eq_none]
  simp [mem_inOrder]

end Requirement

/-! ## Frames by their numbers -/

section Numbers

variable {f : Frame} {i : Nat}

theorem drop_frame (h : i < headerLength) :
    f.octets.drop i = f.octet i h :: f.octets.drop (i + 1) :=
  List.drop_eq_getElem_cons (Nat.lt_of_lt_of_le h f.length_ge)

theorem numberAt_octet (h : i < headerLength) : numberAt f.octets i 1 = (f.octet i h).toNat := by
  rw [numberAt, part, drop_frame h]
  simp [number]

theorem numberAt_word (h : i + 1 < headerLength) :
    numberAt f.octets i 2 = (f.word i h).toNat := by
  have hhi := (f.octet i (Nat.lt_of_succ_lt h)).toNat_lt
  have hlo := (f.octet (i + 1) h).toNat_lt
  rw [numberAt, part, drop_frame (Nat.lt_of_succ_lt h), drop_frame h, Frame.word, Octets.joinWord,
    UInt16.toNat_ofNat']
  simp only [number, List.take_succ_cons, List.take_zero, List.foldl_cons, List.foldl_nil]
  omega

theorem numberAt_long (h : i + 3 < headerLength) :
    numberAt f.octets i 4 = (f.long i h).toNat := by
  have h0 := (f.octet i (by omega)).toNat_lt
  have h1 := (f.octet (i + 1) (by omega)).toNat_lt
  have h2 := (f.octet (i + 2) (by omega)).toNat_lt
  have h3 := (f.octet (i + 3) h).toNat_lt
  rw [numberAt, part, drop_frame (i := i) (by omega), drop_frame (i := i + 1) (by omega),
    drop_frame (i := i + 2) (by omega), drop_frame h, Frame.long, Octets.joinLong,
    UInt32.toNat_ofNat']
  simp only [number, List.take_succ_cons, List.take_zero, List.foldl_cons, List.foldl_nil]
  omega

theorem numberAt_flagBits (h : i < headerLength) :
    numberAt f.octets i 1 / 16 = (f.flagBits i h).toNat := by
  rw [numberAt_octet h, Frame.flagBits, UInt8.toNat_shiftRight, Nat.shiftRight_eq_div_pow]
  rfl

end Numbers

/-- The requirements on a frame are those on the numbers in its headers. -/
theorem requirements_eq (f : Frame) : f.requirements =
    Requirement.onHeaders.map fun r => (decide (r.Met f.octets), r.fault f.octets) := by
  have hid : decide (f.span 4 12 = identifierOctets) =
      decide (Requirement.identifier.Met f.octets) := decide_eq_decide.2 Iff.rfl
  have hmax : maxProperties.toNat = 513 := rfl
  simp only [Frame.requirements, Frame.propertyCount, Requirement.onHeaders, List.map_cons,
    List.map_nil, hid, List.cons.injEq, Prod.mk.injEq, true_and, and_true]
  simp only [Requirement.fault, Requirement.Met, hmax,
    numberAt_word (f := f) (i := 0) (by decide), numberAt_word (f := f) (i := 2) (by decide),
    numberAt_flagBits (f := f) (i := 16) (by decide),
    numberAt_long (f := f) (i := 18) (by decide),
    numberAt_flagBits (f := f) (i := 38) (by decide),
    numberAt_long (f := f) (i := 40) (by decide),
    numberAt_flagBits (f := f) (i := 115) (by decide),
    numberAt_octet (f := f) (i := 117) (by decide), numberAt_octet (f := f) (i := 118) (by decide),
    numberAt_word (f := f) (i := 119) (by decide), numberAt_word (f := f) (i := 121) (by decide),
    numberAt_word (f := f) (i := 123) (by decide), ← UInt8.toNat_inj, ← UInt16.toNat_inj,
    ← UInt32.toNat_inj, UInt16.le_iff_toNat_le, UInt8.reduceToNat, UInt16.reduceToNat,
    UInt32.reduceToNat, UInt8.ofNat_toNat, UInt16.ofNat_toNat, UInt32.ofNat_toNat, and_self]

theorem fault?_eq (f : Frame) : f.fault? =
    (Requirement.onHeaders.find? fun r => !decide (r.Met f.octets)).map
      (Requirement.fault f.octets) := by
  rw [Frame.fault?, requirements_eq, List.find?_map, Option.map_map]
  rfl

/-! ## What comes of a datagram -/

/-- A datagram that fails a requirement is refused with the fault of the first one that it fails. -/
theorem decode_of_failed {b : Octets} {r : Requirement}
    (h : Requirement.firstFailed? b = some r) : decode b = .error (r.fault b) := by
  rw [Requirement.firstFailed?, Requirement.inOrder] at h
  by_cases hlength : Requirement.length.Met b
  · have hshort : ¬ b.length < headerLength := Nat.not_lt.2 hlength.1
    have hlong : ¬ b.length > maxLength := Nat.not_lt.2 hlength.2
    rw [List.find?_cons_of_neg (by simpa using hlength)] at h
    have hfault := fault?_eq ⟨b, hlength.1, hlength.2⟩
    rw [h] at hfault
    simp only [decode, dif_neg hshort, dif_neg hlong, hfault, Option.map_some]
  · rw [List.find?_cons_of_pos (by simpa using hlength)] at h
    obtain rfl := Option.some.inj h
    rw [Requirement.Met, not_and_or, Nat.not_le, Nat.not_le] at hlength
    by_cases hshort : b.length < headerLength
    · rw [decode, dif_pos hshort, Requirement.fault, if_pos (show b.length < 126 from hshort)]
    · have hlong : b.length > maxLength := hlength.resolve_left hshort
      rw [decode, dif_neg hshort, dif_pos hlong, Requirement.fault,
        if_neg (show ¬ b.length < 126 from hshort)]

/-- A datagram that meets all requirements is read. -/
theorem decode_of_met {b : Octets} (h : ∀ r, Requirement.Met b r) :
    ∃ f : Frame, f.octets = b ∧ decode b = .ok (ofFrame f) := by
  have hlength := h .length
  have hshort : ¬ b.length < headerLength := Nat.not_lt.2 hlength.1
  have hlong : ¬ b.length > maxLength := Nat.not_lt.2 hlength.2
  refine ⟨⟨b, hlength.1, hlength.2⟩, rfl, ?_⟩
  have hfault := fault?_eq ⟨b, hlength.1, hlength.2⟩
  rw [List.find?_eq_none.2 (fun r _ => by simpa using h r)] at hfault
  simp only [decode, dif_neg hshort, dif_neg hlong, hfault, Option.map_none]

theorem decode_eq_error_iff {b : Octets} {fault : Fault} : decode b = .error fault ↔
    ∃ r, Requirement.FirstFailed b r ∧ fault = r.fault b := by
  constructor
  · intro h
    cases hr : Requirement.firstFailed? b with
    | some r =>
      rw [decode_of_failed hr, Except.error.injEq] at h
      exact ⟨r, Requirement.firstFailed?_eq_some_iff.1 hr, h.symm⟩
    | none =>
      obtain ⟨f, -, hf⟩ := decode_of_met (Requirement.firstFailed?_eq_none_iff.1 hr)
      rw [hf] at h
      cases h
  · rintro ⟨r, hr, rfl⟩
    exact decode_of_failed (Requirement.firstFailed?_eq_some_iff.2 hr)

theorem met_of_decode {b : Octets} {p : Packet} (h : decode b = .ok p) :
    ∀ r, Requirement.Met b r := by
  rw [← Requirement.firstFailed?_eq_none_iff]
  cases hr : Requirement.firstFailed? b with
  | none => rfl
  | some r =>
    rw [decode_of_failed hr] at h
    cases h

/-! ## What a datagram says -/

/-- What a datagram says of a packet: every field is the number at its offset. -/
structure Describes (b : Octets) (p : Packet) : Prop where
  cid : p.cid.octets = part b 22 16
  sourceName : p.sourceName = Text.Utf8.decodeLossy ((part b 44 64).takeWhile (· ≠ 0))
  priority : p.priority.toNat = numberAt b 108 1
  syncAddress : p.syncAddress.toNat = numberAt b 109 2
  sequenceNumber : p.sequenceNumber.toNat = numberAt b 111 1
  options : p.options.toNat = numberAt b 112 1
  universeId : p.universeId.toNat = numberAt b 113 2
  startCode : p.startCode.toNat = numberAt b 125 1
  slots : p.slots = part b 126 (numberAt b 123 2 - 1)
  length_slots : p.slots.length = numberAt b 123 2 - 1

/-- A packet is what its datagram says. -/
theorem describes_of_decode {b : Octets} {p : Packet} (h : decode b = .ok p) : Describes b p := by
  have hmet := met_of_decode h
  obtain ⟨hpos, -, hend⟩ := hmet .count
  obtain ⟨f, rfl, hf⟩ := decode_of_met hmet
  rw [hf, Except.ok.injEq] at h
  subst h
  have hcount : f.propertyCount.toNat = numberAt f.octets 123 2 := (numberAt_word _).symm
  have hslots : f.slots = part f.octets 126 (numberAt f.octets 123 2 - 1) := hcount ▸ rfl
  have hlength : f.slots.length = numberAt f.octets 123 2 - 1 := by
    rw [hslots, part, List.length_take, List.length_drop]
    omega
  exact {
    cid := rfl
    sourceName := rfl
    priority := (numberAt_octet (by decide)).symm
    syncAddress := (numberAt_word (by decide)).symm
    sequenceNumber := (numberAt_octet (by decide)).symm
    options := (numberAt_octet (by decide)).symm
    universeId := (numberAt_word (by decide)).symm
    startCode := (numberAt_octet (by decide)).symm
    slots := hslots
    length_slots := hlength }

/-- Datagrams that say the same describe the same packet. -/
theorem Describes.unique {b : Octets} {p q : Packet} (hp : Describes b p) (hq : Describes b q) :
    p = q := by
  obtain ⟨universeId, cid, sourceName, priority, sync, sequence, options, startCode, slots, _⟩ := p
  obtain ⟨universeId', cid', sourceName', priority', sync', sequence', options', startCode', slots',
    _⟩ := q
  obtain rfl : cid = cid' := Cid.ext (hp.cid.trans hq.cid.symm)
  obtain rfl : sourceName = sourceName' := hp.sourceName.trans hq.sourceName.symm
  obtain rfl : priority = priority' := UInt8.toNat_inj.1 (hp.priority.trans hq.priority.symm)
  obtain rfl : sync = sync' := UInt16.toNat_inj.1 (hp.syncAddress.trans hq.syncAddress.symm)
  obtain rfl : sequence = sequence' :=
    UInt8.toNat_inj.1 (hp.sequenceNumber.trans hq.sequenceNumber.symm)
  obtain rfl : options = options' := UInt8.toNat_inj.1 (hp.options.trans hq.options.symm)
  obtain rfl : universeId = universeId' :=
    UInt16.toNat_inj.1 (hp.universeId.trans hq.universeId.symm)
  obtain rfl : startCode = startCode' := UInt8.toNat_inj.1 (hp.startCode.trans hq.startCode.symm)
  obtain rfl : slots = slots' := hp.slots.trans hq.slots.symm
  rfl

/-! ## What is not read -/

/-- Whether the octet at an offset is not read: the lower octet of a layer's length, or an octet of
the name field behind the first zero in it. -/
def Unread (b : Octets) (i : Nat) : Prop :=
  i = 17 ∨ i = 39 ∨ i = 116 ∨ (i < 108 ∧ ∃ j, 44 ≤ j ∧ j < i ∧ b[j]? = some 0)

/-- Two datagrams that differ at most in the lengths of their layers, in the name behind its first
zero, and in what follows the slots that the first of them announces. -/
structure Agree (b b' : Octets) : Prop where
  holds : 125 + numberAt b 123 2 ≤ b'.length
  fits : b'.length ≤ 638
  /-- The flags of a layer share an octet with the upper four bits of its length. -/
  flags : ∀ i ∈ [16, 38, 115], numberAt b' i 1 / 16 = numberAt b i 1 / 16
  octets : ∀ i < 125 + numberAt b 123 2, i ∉ [16, 38, 115] → ¬ Unread b i → b'[i]? = b[i]?

/-- Octets that are the same one by one are the same as a part. -/
theorem part_congr {b b' : Octets} {i n : Nat} (h : ∀ k, i ≤ k → k < i + n → b'[k]? = b[k]?) :
    part b' i n = part b i n := by
  refine List.ext_getElem? ?_
  intro k
  rw [part, part, List.getElem?_take, List.getElem?_take]
  split
  · rw [List.getElem?_drop, List.getElem?_drop]
    exact h (i + k) (Nat.le_add_right i k) (by omega)
  · rfl

/-- What stands in front of the first zero does not depend on what follows it. -/
theorem takeWhile_congr {l l' : Octets}
    (h : ∀ k : Nat, (∀ j : Nat, j < k → l[j]? ≠ some 0) → l'[k]? = l[k]?) :
    l'.takeWhile (· ≠ 0) = l.takeWhile (· ≠ 0) := by
  induction l generalizing l' with
  | nil =>
    have hnil : l' = [] := by
      have h0 := h 0 (fun j hj => absurd hj (Nat.not_lt_zero j))
      simpa using h0
    rw [hnil]
  | cons a rest ih =>
    have h0 : l'[0]? = some a := h 0 (fun j hj => absurd hj (Nat.not_lt_zero j))
    cases l' with
    | nil => cases h0
    | cons a' rest' =>
      obtain rfl : a' = a := Option.some.inj h0
      by_cases hzero : a' = 0
      -- From a zero on the lists may differ, but nothing of them is taken.
      · simp [hzero]
      · have hrest : rest'.takeWhile (· ≠ 0) = rest.takeWhile (· ≠ 0) := by
          refine ih fun k hk => ?_
          refine h (k + 1) fun j hj => ?_
          cases j with
          | zero => exact fun he => hzero (Option.some.inj he)
          | succ j => exact hk j (Nat.lt_of_succ_lt_succ hj)
        rw [List.takeWhile_cons_of_pos (by simpa using hzero),
          List.takeWhile_cons_of_pos (by simpa using hzero), hrest]

section Agreeing

variable {b b' : Octets}

/-- A part that has neither flags nor lengths nor the name in it is the same. -/
theorem Agree.part_eq (h : Agree b b') {i n : Nat} (hend : i + n ≤ 125 + numberAt b 123 2)
    (hi : ∀ k < n, i + k ∉ [16, 17, 38, 39, 115, 116] ∧ (i + k < 44 ∨ 108 ≤ i + k)) :
    part b' i n = part b i n := by
  refine part_congr fun k hk hk' => ?_
  obtain ⟨hnot, hname⟩ := hi (k - i) (by omega)
  rw [Nat.add_sub_cancel' hk] at hnot hname
  simp only [List.mem_cons, List.not_mem_nil, or_false, not_or] at hnot
  refine h.octets k (by omega) (by simp [hnot]) ?_
  rintro (rfl | rfl | rfl | ⟨hlt, j, hj, hjk, -⟩) <;> omega

theorem Agree.numberAt_eq (h : Agree b b') {i n : Nat} (hend : i + n ≤ 125)
    (hi : ∀ k < n, i + k ∉ [16, 17, 38, 39, 115, 116] ∧ (i + k < 44 ∨ 108 ≤ i + k)) :
    numberAt b' i n = numberAt b i n :=
  congrArg number (h.part_eq (Nat.le_add_right_of_le hend) hi)

theorem Agree.name_eq (h : Agree b b') :
    (part b' 44 64).takeWhile (· ≠ 0) = (part b 44 64).takeWhile (· ≠ 0) := by
  refine takeWhile_congr fun k hk => ?_
  rw [part, part, List.getElem?_take, List.getElem?_take]
  split
  · next hlt =>
    rw [List.getElem?_drop, List.getElem?_drop]
    refine h.octets (44 + k) (by omega) (by simp; omega) ?_
    rintro (he | he | he | ⟨-, j, hj, hjk, hz⟩)
    · omega
    · omega
    · omega
    · refine hk (j - 44) (by omega) ?_
      rw [part, List.getElem?_take, if_pos (by omega), List.getElem?_drop,
        Nat.add_sub_cancel' hj, hz]
  · rfl

/-- A datagram that agrees with a data packet is one. -/
theorem Agree.met (h : Agree b b') (hmet : ∀ r, Requirement.Met b r) :
    ∀ r, Requirement.Met b' r := by
  obtain ⟨hpos, hle, hend⟩ := hmet .count
  have hcount : numberAt b' 123 2 = numberAt b 123 2 := h.numberAt_eq (by decide) (by decide)
  have hid : part b' 4 12 = part b 4 12 := h.part_eq (by omega) (by decide)
  intro r
  cases r with
  | length => exact ⟨Nat.le_trans (by omega) h.holds, h.fits⟩
  | preamble =>
    rw [Requirement.Met, h.numberAt_eq (by decide) (by decide),
      h.numberAt_eq (by decide) (by decide)]
    exact hmet .preamble
  | identifier =>
    rw [Requirement.Met, hid]
    exact hmet .identifier
  | rootFlags => exact (h.flags 16 (by decide)).trans (hmet .rootFlags)
  | rootVector =>
    exact (h.numberAt_eq (by decide) (by decide)).trans (hmet .rootVector)
  | framingFlags => exact (h.flags 38 (by decide)).trans (hmet .framingFlags)
  | framingVector => exact (h.numberAt_eq (by decide) (by decide)).trans (hmet .framingVector)
  | dmpFlags => exact (h.flags 115 (by decide)).trans (hmet .dmpFlags)
  | dmpVector => exact (h.numberAt_eq (by decide) (by decide)).trans (hmet .dmpVector)
  | addressType => exact (h.numberAt_eq (by decide) (by decide)).trans (hmet .addressType)
  | addressing =>
    rw [Requirement.Met, h.numberAt_eq (by decide) (by decide),
      h.numberAt_eq (by decide) (by decide)]
    exact hmet .addressing
  | count =>
    rw [Requirement.Met, hcount]
    exact ⟨hpos, hle, h.holds⟩

/-- A datagram that agrees with a data packet says the same. -/
theorem Agree.describes (h : Agree b b') (hmet : Requirement.count.Met b) {p : Packet}
    (hp : Describes b p) : Describes b' p := by
  obtain ⟨hpos, -, -⟩ := hmet
  have hcount : numberAt b' 123 2 = numberAt b 123 2 := h.numberAt_eq (by decide) (by decide)
  have hstart : numberAt b' 125 1 = numberAt b 125 1 :=
    congrArg number (h.part_eq (by omega) (by decide))
  have hslots : part b' 126 (numberAt b 123 2 - 1) = part b 126 (numberAt b 123 2 - 1) := by
    refine h.part_eq (by omega) fun k hk => ⟨?_, .inr (by omega)⟩
    simp
    omega
  exact {
    cid := hp.cid.trans (h.part_eq (by omega) (by decide)).symm
    sourceName := by rw [hp.sourceName, h.name_eq]
    priority := hp.priority.trans (h.numberAt_eq (by decide) (by decide)).symm
    syncAddress := hp.syncAddress.trans (h.numberAt_eq (by decide) (by decide)).symm
    sequenceNumber := hp.sequenceNumber.trans (h.numberAt_eq (by decide) (by decide)).symm
    options := hp.options.trans (h.numberAt_eq (by decide) (by decide)).symm
    universeId := hp.universeId.trans (h.numberAt_eq (by decide) (by decide)).symm
    startCode := hp.startCode.trans hstart.symm
    slots := by rw [hp.slots, hcount, hslots]
    length_slots := by rw [hp.length_slots, hcount] }

/-- Datagrams that agree hold the same packet. -/
theorem decode_of_agree {p : Packet} (hp : decode b = .ok p) (h : Agree b b') :
    decode b' = .ok p := by
  have hmet := met_of_decode hp
  obtain ⟨f, -, hf⟩ := decode_of_met (h.met hmet)
  have hsame := h.describes (hmet .count) (describes_of_decode hp)
  rw [hf, (describes_of_decode hf).unique hsame]

end Agreeing

/-- A datagram is never left while it is read. It is read exactly if it meets all requirements, and
is then what it says, and otherwise it is refused with the fault of the first requirement that it
fails. Whatever agrees with a datagram that is read holds the same packet. -/
theorem decode_by_requirements (b : Octets) :
    Guarded.decode b = some (decode b) ∧
      ((∃ p, decode b = .ok p) ↔ ∀ r, Requirement.Met b r) ∧
      (∀ p, decode b = .ok p → Describes b p) ∧
      (∀ fault, decode b = .error fault ↔
        ∃ r, Requirement.FirstFailed b r ∧ fault = r.fault b) ∧
      ∀ p b', decode b = .ok p → Agree b b' → decode b' = .ok p := by
  refine ⟨Guarded.decode_eq b, ⟨?_, ?_⟩, ?_, ?_, ?_⟩
  · rintro ⟨p, hp⟩
    exact met_of_decode hp
  · intro hmet
    obtain ⟨f, -, hf⟩ := decode_of_met hmet
    exact ⟨ofFrame f, hf⟩
  · intro p hp
    exact describes_of_decode hp
  · intro fault
    exact decode_eq_error_iff
  · intro p b' hp h
    exact decode_of_agree hp h

/-- A datagram with another length in its root layer, something behind its empty name and two more
octets at its end holds the packet that was written. -/
theorem decode_by_requirements_altered :
    Agree (encode { universeId := 1, slots := [42] })
        (((encode { universeId := 1, slots := [42] }).set 17 0).set 45 7 ++ [9, 9]) ∧
      decode (((encode { universeId := 1, slots := [42] }).set 17 0).set 45 7 ++ [9, 9]) =
        .ok { universeId := 1, slots := [42] } := by
  have hname : readName (nameField "") = "" := by decide +kernel
  have hread : decode (encode { universeId := 1, slots := [42] }) =
      .ok { universeId := 1, slots := [42] } := by
    rw [decode_written, hname]
  have hzero : (encode { universeId := 1, slots := [42] })[44]? = some 0 := by decide +kernel
  have hend : 125 + numberAt (encode { universeId := 1, slots := [42] }) 123 2 = 127 := by
    decide +kernel
  have hlength : (encode { universeId := 1, slots := [42] }).length = 127 := by decide +kernel
  have hagree : Agree (encode { universeId := 1, slots := [42] })
      (((encode { universeId := 1, slots := [42] }).set 17 0).set 45 7 ++ [9, 9]) := by
    refine ⟨by decide +kernel, by decide +kernel, by decide +kernel, ?_⟩
    intro i hi _ hunread
    have h17 : 17 ≠ i := fun he => hunread (.inl he.symm)
    have h45 : 45 ≠ i := by
      rintro rfl
      exact hunread (.inr (.inr (.inr ⟨by decide, 44, by decide, by decide, hzero⟩)))
    rw [hend] at hi
    rw [List.getElem?_append_left (by rwa [List.length_set, List.length_set, hlength]),
      List.getElem?_set_ne h45, List.getElem?_set_ne h17]
  exact ⟨hagree, (decode_by_requirements _).2.2.2.2 _ _ hread hagree⟩

end StreamingAcn.Packet
