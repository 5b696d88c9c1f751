/-
StreamingAcn.Cid — component identifiers.

Every source signs its packets with a component identifier of 16 octets. Identifiers are ordered
as their octets are, first octet first, and are shown in lower-case hexadecimal digits in groups
of 8, 4, 4, 4 and 12.
-/
import StreamingAcn.Octets

namespace StreamingAcn

/-- A component identifier: 16 octets that name a source. -/
structure Cid where
  octets : Octets
  length_octets : octets.length = 16
  deriving DecidableEq

namespace Cid

instance : LT Cid := ⟨fun a b => a.octets < b.octets⟩

instance : DecidableLT Cid := fun a b => inferInstanceAs (Decidable (a.octets < b.octets))

theorem ext {a b : Cid} (h : a.octets = b.octets) : a = b := by
  cases a; cases b; simp_all

instance : Trans (α := Cid) (β := Cid) (γ := Cid) (· < ·) (· < ·) (· < ·) :=
  ⟨fun hab hbc => @List.lt_trans UInt8 _ _ _ _ _ hab hbc⟩

instance : Std.Irrefl (α := Cid) (· < ·) := ⟨fun a => List.lt_irrefl a.octets⟩

instance : Std.Trichotomous (α := Cid) (· < ·) :=
  ⟨fun _ _ hab hba =>
    ext (Std.Trichotomous.trichotomous (r := (· < · : Octets → Octets → Prop)) _ _ hab hba)⟩

def zero : Cid := ⟨List.replicate 16 0, by decide⟩

def ofOctets? (bytes : Octets) : Option Cid :=
  if h : bytes.length = 16 then some ⟨bytes, h⟩ else none

/-- The octets from one position up to another, as hexadecimal digits. -/
def digits (c : Cid) (first past : Nat) : List Char :=
  Octets.toHex ((c.octets.take past).drop first)

/-- The characters of the text form: groups of 8, 4, 4, 4 and 12 digits joined by dashes. -/
def textChars (c : Cid) : List Char :=
  c.digits 0 4 ++ '-' :: c.digits 4 6 ++ '-' :: c.digits 6 8 ++ '-' :: c.digits 8 10 ++
    '-' :: c.digits 10 16

def text (c : Cid) : String := String.ofList c.textChars

end Cid

end StreamingAcn
