/-
StreamingAcn.Proofs.Cid — what the text of an identifier says.

The text of an identifier is its octets in hexadecimal digits, with dashes between groups of them.
No digit is a dash, so the digits come back when the dashes are left out, and with them the octets.
The dashes stand at the same places of every text, and larger digits are larger characters, so two
texts differ first where the octets do, and in the same direction.

Definitions:

* `IsGrouped`: a text in the form of an identifier, with a dash at certain places and digits at all
  others;
* `writtenFrom`: the text octet by octet, with a dash in front of the octets that begin a group.

Main statements:

* `ofHex?_filter_textChars`: the octets are read back from the text without its dashes;
* `text_inj`: different identifiers have different texts;
* `named_and_ordered_by_text`: a text has the form of an identifier and tells its octets, and texts
  are ordered as their identifiers are.
-/
import StreamingAcn.Cid
import Mathlib.Data.List.Basic

namespace StreamingAcn

/-! ## Digits as characters -/

namespace Octets

/-- A hexadecimal digit as it is written, which is in lower case. -/
def isLowerHex (x : Char) : Bool := ('0' ≤ x ∧ x ≤ '9') ∨ ('a' ≤ x ∧ x ≤ 'f')

theorem isLowerHex_hexDigit : ∀ n < 16, isLowerHex (hexDigit n) := by decide

-- All letters stand behind all decimal digits, so the sixteen digits ascend across the gap.
theorem hexDigit_lt_hexDigit : ∀ m < 16, ∀ n < 16, hexDigit m < hexDigit n ↔ m < n := by decide

theorem hexDigit_inj : ∀ m < 16, ∀ n < 16, hexDigit m = hexDigit n ↔ m = n := by decide

theorem isLowerHex_of_mem_toHex {x : Char} {bs : Octets} (h : x ∈ toHex bs) : isLowerHex x := by
  induction bs with
  | nil => exact absurd h List.not_mem_nil
  | cons b rest ih =>
    have hb := b.toNat_lt
    rw [toHex, List.mem_cons, List.mem_cons] at h
    obtain rfl | rfl | h := h
    · exact isLowerHex_hexDigit _ (by omega)
    · exact isLowerHex_hexDigit _ (by omega)
    · exact ih h

theorem dash_not_mem_toHex (bs : Octets) : '-' ∉ toHex bs := by
  have hdash : isLowerHex '-' = false := by decide
  intro h
  exact absurd (isLowerHex_of_mem_toHex h) (Bool.eq_false_iff.1 hdash)

/-- Of two texts that begin with the digits of an octet, the one with the smaller octet comes first;
where the octets are equal, what follows decides. -/
theorem toHex_append_lt_toHex_append (a b : UInt8) (xs ys : List Char) :
    toHex [a] ++ xs < toHex [b] ++ ys ↔ a < b ∨ a = b ∧ xs < ys := by
  have ha := a.toNat_lt
  have hb := b.toNat_lt
  have hlt : a.toNat < b.toNat ↔ a.toNat / 16 < b.toNat / 16 ∨
      a.toNat / 16 = b.toNat / 16 ∧ a.toNat % 16 < b.toNat % 16 := by omega
  have heq : a.toNat = b.toNat ↔
      a.toNat / 16 = b.toNat / 16 ∧ a.toNat % 16 = b.toNat % 16 := by omega
  have hhigh : a.toNat / 16 < 16 ∧ b.toNat / 16 < 16 := by omega
  have hlow : a.toNat % 16 < 16 ∧ b.toNat % 16 < 16 := by omega
  rw [UInt8.lt_iff_toNat_lt, ← UInt8.toNat_inj, hlt, heq]
  simp only [toHex, List.cons_append, List.nil_append, List.cons_lt_cons_iff,
    hexDigit_lt_hexDigit _ hhigh.1 _ hhigh.2, hexDigit_inj _ hhigh.1 _ hhigh.2,
    hexDigit_lt_hexDigit _ hlow.1 _ hlow.2, hexDigit_inj _ hlow.1 _ hlow.2]
  rw [and_or_left, ← or_assoc, and_assoc]

end Octets

namespace Cid

/-! ## Reading the octets back -/

variable (c : Cid)

/-- Two groups of digits that meet are one. -/
theorem digits_append {first mid past : Nat} (hfirst : first ≤ mid) (hpast : mid ≤ past) :
    c.digits first mid ++ c.digits mid past = c.digits first past := by
  have htake : c.octets.take mid = (c.octets.take past).take mid := by
    rw [List.take_take, Nat.min_eq_left hpast]
  have hdrop : (c.octets.take past).drop mid =
      ((c.octets.take past).drop first).drop (mid - first) := by
    rw [List.drop_drop, Nat.add_sub_cancel' hfirst]
  rw [digits, digits, digits, ← Octets.toHex_append, htake, List.drop_take, hdrop,
    List.take_append_drop]

theorem digits_whole : c.digits 0 16 = Octets.toHex c.octets := by
  rw [digits, List.drop_zero, List.take_of_length_le (Nat.le_of_eq c.length_octets)]

theorem filter_digits (first past : Nat) :
    (c.digits first past).filter (· ≠ '-') = c.digits first past := by
  rw [List.filter_eq_self]
  intro x hx
  exact decide_eq_true fun h => Octets.dash_not_mem_toHex _ (h ▸ hx)

/-- The text without its dashes is the digits of the octets. -/
theorem filter_textChars : c.textChars.filter (· ≠ '-') = Octets.toHex c.octets := by
  have hdash : ∀ xs : List Char, ('-' :: xs).filter (· ≠ '-') = xs.filter (· ≠ '-') := fun _ => rfl
  simp only [textChars, List.filter_append, hdash, filter_digits]
  rw [c.digits_append (by decide) (by decide), c.digits_append (by decide) (by decide),
    c.digits_append (by decide) (by decide), c.digits_append (by decide) (by decide), digits_whole]

theorem ofHex?_filter_textChars : Octets.ofHex? (c.textChars.filter (· ≠ '-')) = some c.octets := by
  rw [filter_textChars, Octets.ofHex?_toHex]

/-- Different identifiers have different texts. -/
theorem text_inj {a b : Cid} : a.text = b.text ↔ a = b := by
  constructor
  · intro h
    have hchars : a.textChars = b.textChars := String.ofList_injective h
    have hoctets := a.ofHex?_filter_textChars
    rw [hchars, ofHex?_filter_textChars, Option.some.injEq] at hoctets
    exact ext hoctets.symm
  · rintro rfl
    rfl

/-! ## The form of a text -/

/-- The places in a text where a dash stands. -/
def dashPlaces : List Nat := [8, 13, 18, 23]

/-- A text of groups of 8, 4, 4, 4 and 12 digits joined by dashes. -/
structure IsGrouped (text : String) : Prop where
  length : text.length = 36
  dash_iff : ∀ place, text.toList[place]? = some '-' ↔ place ∈ dashPlaces
  isLowerHex : ∀ x ∈ text.toList, x ≠ '-' → Octets.isLowerHex x

/-- No character of a group of digits is a dash. -/
theorem dashes_digits {first past : Nat} (hpast : past ≤ 16) :
    (c.digits first past).map (· == '-') = List.replicate (2 * (past - first)) false := by
  have hlength : (c.digits first past).length = 2 * (past - first) := by
    rw [digits, Octets.length_toHex, List.length_drop, List.length_take, c.length_octets,
      Nat.min_eq_left hpast]
  rw [← hlength, List.map_eq_replicate_iff]
  intro x hx
  exact beq_eq_false_iff_ne.2 fun h => Octets.dash_not_mem_toHex _ (h ▸ hx)

/-- Which characters of a text are dashes does not depend on the octets. -/
theorem dashes_textChars :
    c.textChars.map (· == '-') = (List.range 36).map fun place => decide (place ∈ dashPlaces) := by
  simp only [textChars, List.map_append, List.map_cons, c.dashes_digits (by decide : 4 ≤ 16),
    c.dashes_digits (by decide : 6 ≤ 16), c.dashes_digits (by decide : 8 ≤ 16),
    c.dashes_digits (by decide : 10 ≤ 16), c.dashes_digits (by decide : 16 ≤ 16)]
  decide

theorem textChars_eq_dash_iff (place : Nat) :
    c.textChars[place]? = some '-' ↔ place ∈ dashPlaces := by
  have hplaces : ∀ p ∈ dashPlaces, p < 36 := by decide
  calc c.textChars[place]? = some '-'
      ↔ (c.textChars.map (· == '-'))[place]? = some true := by simp
    _ ↔ place < 36 ∧ place ∈ dashPlaces := by simp [dashes_textChars, List.getElem?_eq_some_iff]
    _ ↔ place ∈ dashPlaces := and_iff_right_of_imp (hplaces place)

theorem isGrouped_text : IsGrouped c.text where
  length := by
    have h := congrArg List.length c.dashes_textChars
    rwa [List.length_map, List.length_map, List.length_range, ← String.length_ofList] at h
  dash_iff place := by rw [text, String.toList_ofList, textChars_eq_dash_iff]
  isLowerHex x hx hdash := by
    rw [text, String.toList_ofList] at hx
    have hfilter : x ∈ c.textChars.filter (· ≠ '-') :=
      List.mem_filter.2 ⟨hx, decide_eq_true hdash⟩
    rw [filter_textChars] at hfilter
    exact Octets.isLowerHex_of_mem_toHex hfilter

example :
    (Cid.mk [0x5c, 0x1e, 0x8d, 0x2f, 0x00, 0x11, 0x4a, 0x9b, 0x80, 0x01, 0xde, 0xad, 0xbe, 0xef,
      0x00, 0x42] rfl).text = "5c1e8d2f-0011-4a9b-8001-deadbeef0042" := by
  decide

/-! ## The order of texts -/

/-- The places of the octets that begin a group after the first. -/
def groupStarts : List Nat := [4, 6, 8, 10]

/-- What is written in front of the octet at a place. -/
def lead (place : Nat) : List Char := if place ∈ groupStarts then ['-'] else []

/-- The text of the octets from a place on, one octet after the other. -/
def writtenFrom (place : Nat) : Octets → List Char
  | [] => []
  | b :: rest => lead place ++ (Octets.toHex [b] ++ writtenFrom (place + 1) rest)

/-- Groups joined by dashes are the octets written one by one, with the dashes put in on the way. -/
theorem textChars_eq_writtenFrom : c.textChars = writtenFrom 0 c.octets := by
  obtain ⟨octets, h⟩ := c
  match octets, h with
  | [b₀, b₁, b₂, b₃, b₄, b₅, b₆, b₇, b₈, b₉, b₁₀, b₁₁, b₁₂, b₁₃, b₁₄, b₁₅], _ => rfl

theorem lead_append_lt_lead_append (place : Nat) (xs ys : List Char) :
    lead place ++ xs < lead place ++ ys ↔ xs < ys := by
  rw [lead]
  split
  · exact List.cons_lt_cons_self
  · exact Iff.rfl

theorem writtenFrom_cons_ne_nil (place : Nat) (b : UInt8) (rest : Octets) :
    writtenFrom place (b :: rest) ≠ [] :=
  List.append_ne_nil_of_right_ne_nil _ (List.cons_ne_nil _ _)

/-- Octets written from the same place on are ordered as they are. -/
theorem writtenFrom_lt_writtenFrom (place : Nat) (as bs : Octets) :
    writtenFrom place as < writtenFrom place bs ↔ as < bs := by
  -- Whether a dash stands in front of the next octets depends on their place alone, so both texts
  -- have it; the induction goes on from the next place.
  induction as generalizing place bs with
  | nil =>
    cases bs with
    | nil => exact iff_of_false (List.lt_irrefl _) (List.lt_irrefl _)
    | cons b bs =>
      obtain ⟨x, xs, h⟩ := List.exists_cons_of_ne_nil (writtenFrom_cons_ne_nil place b bs)
      exact iff_of_true (h ▸ List.nil_lt_cons x xs) (List.nil_lt_cons b bs)
  | cons a as ih =>
    cases bs with
    | nil => exact iff_of_false (List.not_lt_nil _) (List.not_lt_nil _)
    | cons b bs =>
      rw [writtenFrom, writtenFrom, lead_append_lt_lead_append,
        Octets.toHex_append_lt_toHex_append, ih, List.cons_lt_cons_iff]

variable {a b : Cid}

theorem text_lt_text : a.text < b.text ↔ a < b := by
  rw [String.lt_iff, text, text, String.toList_ofList, String.toList_ofList,
    textChars_eq_writtenFrom, textChars_eq_writtenFrom, writtenFrom_lt_writtenFrom]
  exact Iff.rfl

theorem text_le_text : a.text ≤ b.text ↔ ¬ b < a :=
  String.not_lt.symm.trans (not_congr text_lt_text)

/-- Identifiers are named and ordered by their texts: a text is in groups of lower-case digits,
tells its octets, and comes before another one exactly when its identifier does. So sorting
identifiers sorts their texts, and sorting by the texts sorts the identifiers. -/
theorem named_and_ordered_by_text :
    (∀ c : Cid, IsGrouped c.text ∧
      Octets.ofHex? (c.text.toList.filter (· ≠ '-')) = some c.octets) ∧
    (∀ a b : Cid, (a < b ↔ a.text < b.text) ∧ (a = b ↔ a.text = b.text)) ∧
    ∀ cs : List Cid,
      cs.mergeSort (fun a b => ¬ b < a) = cs.mergeSort (fun a b => a.text ≤ b.text) ∧
      (cs.mergeSort fun a b => ¬ b < a).map text = (cs.map text).mergeSort := by
  refine ⟨fun c => ⟨c.isGrouped_text, ?_⟩, fun a b => ⟨text_lt_text.symm, text_inj.symm⟩,
    fun cs => ⟨?_, ?_⟩⟩
  · rw [text, String.toList_ofList, ofHex?_filter_textChars]
  · simp only [text_le_text]
  · exact List.map_mergeSort fun a _ b _ => by simp only [text_le_text]

end Cid

end StreamingAcn
