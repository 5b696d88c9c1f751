/-
StreamingAcn.Proofs.Text.Utf8 — reading back what was written, whole or cut short.

A text that is written as octets is read back as it was, and no unit of it is malformed. Where the
octets are cut in the middle of a character, the octets that are left of that character are one
malformed unit: they begin a character and cannot be told from one that goes on. So a cut text reads
as the characters in front of the cut, followed by at most one replacement character.

Definitions:

* `scan`: the units that some octets close and the character that they leave open;
* `Spells`: octets that make up one character.

Main statements:

* `decodeLossy_encode`: a written text is read back;
* `take_encodeChars`, `decodeLossy_take_encodeChar`: where a cut falls, and what is read there;
* `decodeLossy_take_eq_iff`: when a text that is cut short is read back all the same;
* `decodeLossy_take_stable`: cutting and reading a second time changes nothing;
* `takeWhile_encodeChars`: a zero octet in a written text is a character of number zero.
-/
import StreamingAcn.Text.Utf8
import Mathlib.Data.List.Basic

namespace StreamingAcn.Text.Utf8

/-! ## Scanning -/

/-- The units that some octets close, and the character that they leave open. -/
def scan : Option Pending → Octets → Progress
  | p, [] => ([], p)
  | p, b :: rest => ((step p b).1 ++ (scan (step p b).2 rest).1, (scan (step p b).2 rest).2)

/-- Reading goes on from the character that the octets read so far leave open. -/
theorem unitsFrom_append (p : Option Pending) (as bs : Octets) :
    unitsFrom p (as ++ bs) = (scan p as).1 ++ unitsFrom (scan p as).2 bs := by
  induction as generalizing p with
  | nil => rfl
  | cons b rest ih => simp [unitsFrom, scan, ih]

/-! ## The octets of one character

The opening octets are few enough to look at each. For the octets after them the bounds of the open
character matter, and those only on the octet that follows the opening one. -/

theorem opening_one : ∀ n < 0x80, opening (UInt8.ofNat n) = ([some (Char.ofNat n)], none) := by
  decide

theorem opening_two : ∀ n < 32, 2 ≤ n →
    opening (UInt8.ofNat (n + 0xC0)) = ([], some ⟨0, 0x80, 0xBF, n⟩) := by
  decide

theorem opening_three : ∀ n < 16, opening (UInt8.ofNat (n + 0xE0)) =
    ([], some ⟨1, if n = 0 then 0xA0 else 0x80, if n = 0xD then 0x9F else 0xBF, n⟩) := by
  decide

theorem opening_four : ∀ n < 5, opening (UInt8.ofNat (n + 0xF0)) =
    ([], some ⟨2, if n = 0 then 0x90 else 0x80, if n = 4 then 0x8F else 0xBF, n⟩) := by
  decide

theorem toNat_tail {m : Nat} (hm : m < 64) : (UInt8.ofNat (m + 0x80)).toNat = m + 0x80 := by
  rw [UInt8.toNat_ofNat']
  omega

/-- An octet within the bounds adds its six bits to the open character. -/
theorem step_more {later bits m : Nat} {low high : UInt8} (hm : m < 64)
    (hlow : low.toNat ≤ m + 0x80) (hhigh : m + 0x80 ≤ high.toNat) :
    step (some ⟨later + 1, low, high, bits⟩) (UInt8.ofNat (m + 0x80)) =
      ([], some ⟨later, 0x80, 0xBF, bits * 64 + m⟩) := by
  have hb : low ≤ UInt8.ofNat (m + 0x80) ∧ UInt8.ofNat (m + 0x80) ≤ high := by
    rw [UInt8.le_iff_toNat_le, UInt8.le_iff_toNat_le, toNat_tail hm]
    exact ⟨hlow, hhigh⟩
  simp only [step, if_pos hb, toNat_tail hm, Nat.add_sub_cancel]

/-- The last octet due closes the character that all the bits make up. -/
theorem step_last {bits m : Nat} {low high : UInt8} (hm : m < 64)
    (hlow : low.toNat ≤ m + 0x80) (hhigh : m + 0x80 ≤ high.toNat) :
    step (some ⟨0, low, high, bits⟩) (UInt8.ofNat (m + 0x80)) =
      ([some (Char.ofNat (bits * 64 + m))], none) := by
  have hb : low ≤ UInt8.ofNat (m + 0x80) ∧ UInt8.ofNat (m + 0x80) ≤ high := by
    rw [UInt8.le_iff_toNat_le, UInt8.le_iff_toNat_le, toNat_tail hm]
    exact ⟨hlow, hhigh⟩
  simp only [step, if_pos hb, toNat_tail hm, Nat.add_sub_cancel]

/-- Octets that spell a character from where the reader stands: each but the last leaves it open. -/
inductive Spells : Option Pending → Octets → Char → Prop
  | last {p : Option Pending} {b : UInt8} {c : Char} (h : step p b = ([some c], none)) :
      Spells p [b] c
  | more {p : Option Pending} {q : Pending} {b : UInt8} {rest : Octets} {c : Char}
      (h : step p b = ([], some q)) (hr : Spells (some q) rest c) : Spells p (b :: rest) c

theorem scan_of_spells {p : Option Pending} {bytes : Octets} {c : Char} (h : Spells p bytes c) :
    scan p bytes = ([some c], none) := by
  induction h with
  | last h => simp only [scan, h, List.append_nil]
  | more h _ ih => simp only [scan, h, ih, List.nil_append]

/-- The proper beginnings of a character's octets leave it open. -/
theorem scan_take_of_spells {p : Option Pending} {bytes : Octets} {c : Char}
    (h : Spells p bytes c) {k : Nat} (h0 : 0 < k) (hk : k < bytes.length) :
    ∃ q, scan p (bytes.take k) = ([], some q) := by
  induction h generalizing k with
  | last h => simp only [List.length_singleton] at hk; omega
  | @more p q b rest c h hr ih =>
    match k with
    | 1 => exact ⟨q, by simp only [List.take_succ_cons, List.take_zero, scan, h, List.append_nil]⟩
    | k + 2 =>
      simp only [List.length_cons] at hk
      obtain ⟨r, hr'⟩ := ih (Nat.succ_pos k) (by omega)
      exact ⟨r, by rw [List.take_succ_cons, scan, h, hr', List.nil_append]⟩

/-- The octets of a character spell it. -/
theorem spells_encodeChar (c : Char) : Spells none (String.utf8EncodeChar c) c := by
  have hc : Char.ofNat c.val.toNat = c := Char.ofNat_toNat c
  have hv : c.val.toNat < 0xD800 ∨ 0xDFFF < c.val.toNat ∧ c.val.toNat < 0x110000 := c.valid
  rw [String.utf8EncodeChar]
  generalize c.val.toNat = v at hc hv
  split
  · next h1 =>
    refine .last ?_
    rw [← hc]
    exact opening_one v (by omega)
  · next h1 =>
    split
    · next h2 =>
      have hlast := @step_last (v / 64 % 32) (v % 64) 0x80 0xBF (by omega) (by simp) (by simp; omega)
      rw [show v / 64 % 32 * 64 + v % 64 = v by omega, hc] at hlast
      exact .more (opening_two (v / 64 % 32) (by omega) (by omega)) (.last hlast)
    · next h2 =>
      split
      · next h3 =>
        -- The bounds on the second octet leave out what is shorter, and the surrogates.
        have hmore := @step_more 0 (v / 4096 % 16) (v / 64 % 64)
          (if v / 4096 % 16 = 0 then 0xA0 else 0x80) (if v / 4096 % 16 = 0xD then 0x9F else 0xBF)
          (by omega) (by split <;> simp; omega) (by split <;> (simp; omega))
        have hlast := @step_last (v / 4096 % 16 * 64 + v / 64 % 64) (v % 64) 0x80 0xBF (by omega)
          (by simp) (by simp; omega)
        rw [show (v / 4096 % 16 * 64 + v / 64 % 64) * 64 + v % 64 = v by omega, hc] at hlast
        exact .more (opening_three (v / 4096 % 16) (by omega)) (.more hmore (.last hlast))
      · next h3 =>
        -- The bounds on the second octet leave out what is shorter, and all above U+10FFFF.
        have hmore := @step_more 1 (v / 262144 % 8) (v / 4096 % 64)
          (if v / 262144 % 8 = 0 then 0x90 else 0x80) (if v / 262144 % 8 = 4 then 0x8F else 0xBF)
          (by omega) (by split <;> simp; omega) (by split <;> (simp; omega))
        have hthird := @step_more 0 (v / 262144 % 8 * 64 + v / 4096 % 64) (v / 64 % 64) 0x80 0xBF
          (by omega) (by simp) (by simp; omega)
        have hlast := @step_last ((v / 262144 % 8 * 64 + v / 4096 % 64) * 64 + v / 64 % 64) (v % 64)
          0x80 0xBF (by omega) (by simp) (by simp; omega)
        rw [show ((v / 262144 % 8 * 64 + v / 4096 % 64) * 64 + v / 64 % 64) * 64 + v % 64 = v by
          omega, hc] at hlast
        exact .more (opening_four (v / 262144 % 8) (by omega))
          (.more hmore (.more hthird (.last hlast)))

/-! ## A written text -/

/-- The octets of some characters. -/
def encodeChars (cs : List Char) : Octets := cs.flatMap String.utf8EncodeChar

theorem encode_eq (text : String) : encode text = encodeChars text.toList := rfl

@[simp] theorem encodeChars_nil : encodeChars [] = [] := rfl

theorem encodeChars_cons (c : Char) (cs : List Char) :
    encodeChars (c :: cs) = String.utf8EncodeChar c ++ encodeChars cs := rfl

theorem encodeChars_append (as bs : List Char) :
    encodeChars (as ++ bs) = encodeChars as ++ encodeChars bs := List.flatMap_append

/-- The octets of a text are as many as its size in octets says. -/
theorem length_encode (text : String) : (encode text).length = text.utf8ByteSize := by
  have h : (String.ofList text.toList).utf8ByteSize = (encode text).length := by
    simp [encode, String.ofList, List.utf8Encode]
  rw [← h, String.ofList_toList]

/-- Every character of a written text is read back, whatever follows it. -/
theorem units_encodeChars_append (cs : List Char) (rest : Octets) :
    units (encodeChars cs ++ rest) = cs.map some ++ units rest := by
  induction cs with
  | nil => rfl
  | cons c cs ih =>
    rw [encodeChars_cons, List.append_assoc, units, unitsFrom_append,
      scan_of_spells (spells_encodeChar c)]
    exact congrArg (some c :: ·) ih

/-- The reader of a text does not look beyond the characters that it reads. -/
theorem decodeLossy_encodeChars_append (cs : List Char) (rest : Octets) :
    decodeLossy (encodeChars cs ++ rest) = String.ofList cs ++ decodeLossy rest := by
  rw [decodeLossy, units_encodeChars_append, decodeLossy, List.map_append, ← String.ofList_append,
    List.map_map]
  congr 2
  exact List.map_id cs

/-- A written text is read back as it was. -/
theorem decodeLossy_encodeChars (cs : List Char) :
    decodeLossy (encodeChars cs) = String.ofList cs := by
  have h := decodeLossy_encodeChars_append cs []
  rw [List.append_nil] at h
  rw [h]
  simp [decodeLossy, units, unitsFrom]

theorem decodeLossy_encode (text : String) : decodeLossy (encode text) = text := by
  rw [encode_eq, decodeLossy_encodeChars, String.ofList_toList]

/-! ## A text that is cut short -/

/-- A cut falls behind the text, or at or inside one of its characters. -/
theorem take_encodeChars (cs : List Char) (n : Nat) (h : n < (encodeChars cs).length) :
    ∃ front c back, cs = front ++ c :: back ∧ (encodeChars front).length ≤ n ∧
      n < (encodeChars front).length + (String.utf8EncodeChar c).length ∧
      (encodeChars cs).take n = encodeChars front ++
        (String.utf8EncodeChar c).take (n - (encodeChars front).length) := by
  induction cs generalizing n with
  | nil => simp at h
  | cons c cs ih =>
    by_cases hn : n < (String.utf8EncodeChar c).length
    · refine ⟨[], c, cs, rfl, by simp, by simpa using hn, ?_⟩
      rw [encodeChars_cons, List.take_append_of_le_length (Nat.le_of_lt hn)]
      simp
    · have hle : (String.utf8EncodeChar c).length ≤ n := Nat.le_of_not_lt hn
      rw [encodeChars_cons, List.length_append] at h
      obtain ⟨front, d, back, rfl, h1, h2, h3⟩ :=
        ih (n - (String.utf8EncodeChar c).length) (by omega)
      refine ⟨c :: front, d, back, rfl, ?_, ?_, ?_⟩
      · rw [encodeChars_cons, List.length_append]
        omega
      · rw [encodeChars_cons, List.length_append]
        omega
      · rw [encodeChars_cons, List.take_append, List.take_of_length_le hle, h3, encodeChars_cons,
          List.append_assoc, List.length_append, Nat.sub_sub]

/-- The octets in front of a cut inside a character are one malformed unit. -/
theorem units_take_encodeChar {c : Char} {k : Nat} (h0 : 0 < k)
    (hk : k < (String.utf8EncodeChar c).length) :
    units ((String.utf8EncodeChar c).take k) = [none] := by
  obtain ⟨q, hq⟩ := scan_take_of_spells (spells_encodeChar c) h0 hk
  have h := unitsFrom_append none ((String.utf8EncodeChar c).take k) []
  rw [List.append_nil, hq] at h
  exact h

/-- What is read in front of a cut: nothing at the boundary of a character, and one replacement
character inside it. -/
theorem decodeLossy_take_encodeChar (c : Char) (k : Nat) (hk : k < (String.utf8EncodeChar c).length) :
    decodeLossy ((String.utf8EncodeChar c).take k) =
      String.ofList (if k = 0 then [] else [replacement]) := by
  by_cases h0 : k = 0
  · subst h0
    rfl
  · rw [decodeLossy, units_take_encodeChar (Nat.pos_of_ne_zero h0) hk, if_neg h0]
    rfl

theorem length_encodeChar_replacement : (String.utf8EncodeChar replacement).length = 3 := rfl

/-- A text that is cut after `n` octets reads as itself where nothing is cut off, and where the cut
falls inside a replacement character that ends it. -/
theorem decodeLossy_take_eq_iff (cs : List Char) (n : Nat) :
    decodeLossy ((encodeChars cs).take n) = String.ofList cs ↔
      (encodeChars cs).length ≤ n ∨ ∃ front, cs = front ++ [replacement] ∧
        (encodeChars front).length < n ∧ n < (encodeChars front).length + 3 := by
  by_cases hlen : (encodeChars cs).length ≤ n
  · rw [List.take_of_length_le hlen]
    exact ⟨fun _ => .inl hlen, fun _ => by rw [decodeLossy_encodeChars]⟩
  · obtain ⟨front, c, back, rfl, h1, h2, h3⟩ := take_encodeChars cs n (Nat.lt_of_not_le hlen)
    rw [h3, decodeLossy_encodeChars_append, decodeLossy_take_encodeChar c _ (by omega),
      ← String.ofList_append, String.ofList_inj, List.append_cancel_left_eq]
    constructor
    · intro h
      by_cases hk : n - (encodeChars front).length = 0
      · rw [if_pos hk] at h
        exact absurd h (by simp)
      · rw [if_neg hk, List.cons.injEq] at h
        obtain ⟨rfl, rfl⟩ := h
        rw [length_encodeChar_replacement] at h2
        exact .inr ⟨front, rfl, by omega, h2⟩
    · rintro (hle | ⟨front', he, hlt, hgt⟩)
      · exact absurd hle hlen
      · -- The cut falls inside the last character, so nothing comes after the one it falls in.
        have hback : back = [] := by
          rcases List.eq_nil_or_concat' back with hnil | ⟨init, last, rfl⟩
          · exact hnil
          · have he' : (front ++ c :: init) ++ [last] = front' ++ [replacement] := by
              rw [← he]
              simp
            rw [← (List.append_inj' he' rfl).1, encodeChars_append, encodeChars_cons,
              List.length_append, List.length_append] at hlt
            omega
        subst hback
        obtain ⟨rfl, hc⟩ := List.append_inj' he rfl
        have hk : ¬ n - (encodeChars front).length = 0 := by omega
        rw [if_neg hk]
        exact hc.symm

/-- What is read from a cut text has no characters but those of the text and the replacement. -/
theorem mem_decodeLossy_take {cs : List Char} {n : Nat} {c : Char}
    (h : c ∈ (decodeLossy ((encodeChars cs).take n)).toList) : c ∈ cs ∨ c = replacement := by
  by_cases hlen : (encodeChars cs).length ≤ n
  · rw [List.take_of_length_le hlen, decodeLossy_encodeChars, String.toList_ofList] at h
    exact .inl h
  · obtain ⟨front, d, back, rfl, h1, h2, h3⟩ := take_encodeChars cs n (Nat.lt_of_not_le hlen)
    rw [h3, decodeLossy_encodeChars_append, decodeLossy_take_encodeChar d _ (by omega),
      ← String.ofList_append, String.toList_ofList] at h
    rcases List.mem_append.1 h with h | h
    · exact .inl (List.mem_append_left _ h)
    · split at h
      · exact absurd h List.not_mem_nil
      · exact .inr (List.mem_singleton.1 h)

/-- A cut text reads as a text that reads as itself when it is cut at the same place again. -/
theorem decodeLossy_take_stable (cs : List Char) (n : Nat) :
    decodeLossy ((encode (decodeLossy ((encodeChars cs).take n))).take n) =
      decodeLossy ((encodeChars cs).take n) := by
  by_cases hlen : (encodeChars cs).length ≤ n
  · rw [List.take_of_length_le hlen, decodeLossy_encodeChars, encode_eq, String.toList_ofList,
      List.take_of_length_le hlen, decodeLossy_encodeChars]
  · obtain ⟨front, c, back, rfl, h1, h2, h3⟩ := take_encodeChars cs n (Nat.lt_of_not_le hlen)
    rw [h3, decodeLossy_encodeChars_append, decodeLossy_take_encodeChar c _ (by omega),
      ← String.ofList_append, encode_eq, String.toList_ofList, decodeLossy_take_eq_iff]
    by_cases hk : n - (encodeChars front).length = 0
    · rw [if_pos hk, List.append_nil]
      exact .inl h1
    · -- One to three octets are left for the replacement character, which takes three.
      rw [if_neg hk, encodeChars_append, List.length_append]
      by_cases hfits : (encodeChars front).length + 3 ≤ n
      · exact .inl hfits
      · exact .inr ⟨front, rfl, by omega, by omega⟩

/-! ## Zero octets -/

theorem ofNat_eq_zero {n : Nat} (hn : n < 256) (h : (0 : UInt8) = UInt8.ofNat n) : n = 0 := by
  have h' := congrArg UInt8.toNat h
  rw [UInt8.toNat_ofNat', Nat.mod_eq_of_lt hn] at h'
  exact h'.symm

/-- No octet of a character is zero, unless it is the character of number zero. -/
theorem zero_mem_encodeChar_iff (c : Char) : 0 ∈ String.utf8EncodeChar c ↔ c = '\u0000' := by
  constructor
  · intro h
    rw [String.utf8EncodeChar] at h
    have hv : c.val.toNat = 0 := by
      generalize c.val.toNat = v at h
      split at h
      · next h1 =>
        exact ofNat_eq_zero (by omega) (List.mem_singleton.1 h)
      · -- The octets of a character that takes more than one are all `0x80` or more.
        exfalso
        split at h
        · rcases List.mem_pair.1 h with h | h
          · have := ofNat_eq_zero (by omega) h
            omega
          · have := ofNat_eq_zero (by omega) h
            omega
        · split at h
          · simp only [List.mem_cons, List.not_mem_nil, or_false] at h
            rcases h with h | h | h <;>
              · have := ofNat_eq_zero (by omega) h
                omega
          · simp only [List.mem_cons, List.not_mem_nil, or_false] at h
            rcases h with h | h | h | h <;>
              · have := ofNat_eq_zero (by omega) h
                omega
    exact Char.ext (UInt32.toNat_inj.1 hv)
  · rintro rfl
    decide

/-- The octets in front of the first zero octet are those of the characters in front of the first
character of number zero. -/
theorem takeWhile_encodeChars (cs : List Char) :
    (encodeChars cs).takeWhile (· ≠ 0) = encodeChars (cs.takeWhile (· ≠ '\u0000')) := by
  induction cs with
  | nil => rfl
  | cons c cs ih =>
    rw [encodeChars_cons]
    by_cases hc : c = '\u0000'
    · subst hc
      rfl
    · have hall : ∀ b ∈ String.utf8EncodeChar c, decide (b ≠ 0) = true := by
        intro b hb
        refine decide_eq_true fun h0 => hc ((zero_mem_encodeChar_iff c).1 ?_)
        exact h0 ▸ hb
      rw [List.takeWhile_append_of_pos hall, ih, List.takeWhile_cons_of_pos (by simpa using hc),
        encodeChars_cons]

end StreamingAcn.Text.Utf8
