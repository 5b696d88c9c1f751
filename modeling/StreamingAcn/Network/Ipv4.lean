/-
StreamingAcn.Network.Ipv4 — four-octet network addresses and their dotted text.

The written form is strict: four decimal numbers of at most three digits, none above 255, none
with a leading zero, joined by dots.
-/
import StreamingAcn.Text.Numeral

namespace StreamingAcn.Network

/-- A four-octet network address. -/
structure Ipv4 where
  a : UInt8
  b : UInt8
  c : UInt8
  d : UInt8
  deriving DecidableEq

namespace Ipv4

/-- The address that stands for all local addresses. -/
def unspecified : Ipv4 := ⟨0, 0, 0, 0⟩

def text (ip : Ipv4) : String :=
  s!"{ip.a.toNat}.{ip.b.toNat}.{ip.c.toNat}.{ip.d.toNat}"

/-- Read one octet in front of `text`: at most three digits, no leading zero, at most 255. -/
def readOctet? (text : List Char) : Option (UInt8 × List Char) :=
  let (digits, rest) := text.span Text.isDigit
  if digits.isEmpty ∨ 3 < digits.length ∨ (1 < digits.length ∧ digits.head? = some '0') then none
  else
    let n := Text.decimalValue digits
    if n ≤ 255 then some (UInt8.ofNat n, rest) else none

def read? (text : List Char) : Option (Ipv4 × List Char) := do
  let (a, text) ← readOctet? text
  let (b, text) ← readOctet? (← Text.skip? '.' text)
  let (c, text) ← readOctet? (← Text.skip? '.' text)
  let (d, text) ← readOctet? (← Text.skip? '.' text)
  return (⟨a, b, c, d⟩, text)

def ofText? (text : String) : Option Ipv4 :=
  match read? text.toList with
  | some (ip, []) => some ip
  | _ => none

end Ipv4

end StreamingAcn.Network
