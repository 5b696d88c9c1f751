/-
StreamingAcn.Octets — byte strings, big-endian words and hexadecimal text.

A datagram is a list of octets, first octet first. Words are written with their high octet in
front and read back the same way, and an octet has a written form of two lower-case hexadecimal
digits.

Main statements:

* `joinWord_high_low` and `joinLong_octets`: a word is recovered from its octets;
* `ofHex?_toHex`: reading hexadecimal text recovers the octets it was written from.
-/

namespace StreamingAcn

/-- A byte string, first octet first. -/
abbrev Octets := List UInt8

namespace Octets

/-! ## Big-endian words -/

def high (w : UInt16) : UInt8 := UInt8.ofNat (w.toNat / 256)

def low (w : UInt16) : UInt8 := UInt8.ofNat w.toNat

def joinWord (hi lo : UInt8) : UInt16 := UInt16.ofNat (hi.toNat * 256 + lo.toNat)

/-- A 16-bit word on the wire: high octet first. -/
def ofWord (w : UInt16) : Octets := [high w, low w]

/-- The 32-bit word with the given octets, highest first. -/
def joinLong (a b c d : UInt8) : UInt32 :=
  UInt32.ofNat (((a.toNat * 256 + b.toNat) * 256 + c.toNat) * 256 + d.toNat)

/-- A 32-bit word on the wire: highest octet first. -/
def ofLong (w : UInt32) : Octets :=
  [UInt8.ofNat (w.toNat / 16777216), UInt8.ofNat (w.toNat / 65536),
   UInt8.ofNat (w.toNat / 256), UInt8.ofNat w.toNat]

@[simp] theorem length_ofWord (w : UInt16) : (ofWord w).length = 2 := rfl

@[simp] theorem length_ofLong (w : UInt32) : (ofLong w).length = 4 := rfl

@[simp] theorem joinWord_high_low (w : UInt16) : joinWord (high w) (low w) = w := by
  have h := w.toNat_lt
  apply UInt16.toNat_inj.1
  simp only [joinWord, high, low, UInt16.toNat_ofNat', UInt8.toNat_ofNat']
  omega

@[simp] theorem joinLong_octets (w : UInt32) :
    joinLong (UInt8.ofNat (w.toNat / 16777216)) (UInt8.ofNat (w.toNat / 65536))
      (UInt8.ofNat (w.toNat / 256)) (UInt8.ofNat w.toNat) = w := by
  have h := w.toNat_lt
  apply UInt32.toNat_inj.1
  simp only [joinLong, UInt32.toNat_ofNat', UInt8.toNat_ofNat']
  omega

/-! ## Hexadecimal text -/

def hexDigit (n : Nat) : Char :=
  if n < 10 then Char.ofNat (48 + n) else Char.ofNat (87 + n)

/-- The value of a hexadecimal digit, in either case. -/
def hexValue? (c : Char) : Option Nat :=
  if '0' ≤ c ∧ c ≤ '9' then some (c.toNat - 48)
  else if 'a' ≤ c ∧ c ≤ 'f' then some (c.toNat - 87)
  else if 'A' ≤ c ∧ c ≤ 'F' then some (c.toNat - 55)
  else none

/-- Two digits per octet, high digit first. -/
def toHex : Octets → List Char
  | [] => []
  | b :: rest => hexDigit (b.toNat / 16) :: hexDigit (b.toNat % 16) :: toHex rest

/-- Read two digits per octet; `none` for any other text. -/
def ofHex? : List Char → Option Octets
  | [] => some []
  | [_] => none
  | hi :: lo :: rest =>
    match hexValue? hi, hexValue? lo, ofHex? rest with
    | some h, some l, some bs => some (UInt8.ofNat (h * 16 + l) :: bs)
    | _, _, _ => none

theorem hexValue?_hexDigit : ∀ n < 16, hexValue? (hexDigit n) = some n := by decide

@[simp] theorem length_toHex (bs : Octets) : (toHex bs).length = 2 * bs.length := by
  induction bs with
  | nil => rfl
  | cons b rest ih => simp [toHex, ih]; omega

theorem toHex_append (as bs : Octets) : toHex (as ++ bs) = toHex as ++ toHex bs := by
  induction as with
  | nil => rfl
  | cons b rest ih => simp [toHex, ih]

/-- Reading the written form of octets gives the octets back. -/
@[simp] theorem ofHex?_toHex (bs : Octets) : ofHex? (toHex bs) = some bs := by
  induction bs with
  | nil => rfl
  | cons b rest ih =>
    have hb := b.toNat_lt
    have hi := hexValue?_hexDigit (b.toNat / 16) (by omega)
    have lo := hexValue?_hexDigit (b.toNat % 16) (by omega)
    have hn : b.toNat / 16 * 16 + b.toNat % 16 = b.toNat := by omega
    simp [toHex, ofHex?, hi, lo, ih, hn]

/-- A number as `0x` and its hexadecimal digits, padded with zeros to at least `width` digits. -/
def hexLiteral (width n : Nat) : String :=
  let digits := Nat.toDigits 16 n
  "0x" ++ String.ofList (List.replicate (width - digits.length) '0' ++ digits)

end Octets

end StreamingAcn
