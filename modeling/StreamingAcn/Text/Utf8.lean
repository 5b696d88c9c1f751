/-
StreamingAcn.Text.Utf8 — characters as octets, and octets as characters.

Reading takes the octets one at a time. Each maximal run of octets that begins a character and
cannot go on to complete it counts as one malformed unit; a lenient reader puts one replacement
character in its place, a strict reader refuses the text.

Definitions:

* `encode`: the octets of a text;
* `units`: the characters and malformed units of an octet string, in order;
* `decodeLossy`, `decode?`: the lenient and the strict reading.
-/
import StreamingAcn.Octets

namespace StreamingAcn.Text.Utf8

/-- The octets of a text, one to four for each character. -/
def encode (text : String) : Octets := text.toList.flatMap String.utf8EncodeChar

/-- A character of which the opening octets have been read. -/
structure Pending where
  /-- Octets still due after the next one. -/
  later : Nat
  /-- The least octet that may come next. -/
  low : UInt8
  /-- The greatest octet that may come next. -/
  high : UInt8
  /-- The bits of the code point read so far. -/
  bits : Nat
  deriving DecidableEq

/-- What is known after an octet: the units it closed, and the character it left open. -/
abbrev Progress := List (Option Char) × Option Pending

/--
The effect of an octet between characters. The bounds on the second octet leave out the spellings
longer than needed, the surrogates and the code points above U+10FFFF.
-/
def opening (b : UInt8) : Progress :=
  if b < 0x80 then ([some (Char.ofNat b.toNat)], none)
  else if 0xC2 ≤ b ∧ b ≤ 0xDF then ([], some ⟨0, 0x80, 0xBF, b.toNat - 0xC0⟩)
  else if b = 0xE0 then ([], some ⟨1, 0xA0, 0xBF, 0⟩)
  else if b = 0xED then ([], some ⟨1, 0x80, 0x9F, 0xD⟩)
  else if 0xE1 ≤ b ∧ b ≤ 0xEF then ([], some ⟨1, 0x80, 0xBF, b.toNat - 0xE0⟩)
  else if b = 0xF0 then ([], some ⟨2, 0x90, 0xBF, 0⟩)
  else if b = 0xF4 then ([], some ⟨2, 0x80, 0x8F, 4⟩)
  else if 0xF1 ≤ b ∧ b ≤ 0xF3 then ([], some ⟨2, 0x80, 0xBF, b.toNat - 0xF0⟩)
  else ([none], none)

/--
The effect of an octet. One that cannot continue the open character makes what was read of that
character a malformed unit, and is itself read anew.
-/
def step : Option Pending → UInt8 → Progress
  | none, b => opening b
  | some p, b =>
    if p.low ≤ b ∧ b ≤ p.high then
      let bits := p.bits * 64 + (b.toNat - 0x80)
      match p.later with
      | 0 => ([some (Char.ofNat bits)], none)
      | later + 1 => ([], some ⟨later, 0x80, 0xBF, bits⟩)
    else
      let after := opening b
      (none :: after.1, after.2)

/-- The units of the octets that follow an open character. -/
def unitsFrom : Option Pending → Octets → List (Option Char)
  | none, [] => []
  | some _, [] => [none]
  | p, b :: rest => (step p b).1 ++ unitsFrom (step p b).2 rest

/-- The characters of an octet string in order, `none` for each malformed unit. -/
def units (bytes : Octets) : List (Option Char) := unitsFrom none bytes

def replacement : Char := '\uFFFD'

/-- Lenient reading: each malformed unit becomes one replacement character. -/
def decodeLossy (bytes : Octets) : String :=
  String.ofList ((units bytes).map (·.getD replacement))

/-- Strict reading: `none` if any unit is malformed. -/
def decode? (bytes : Octets) : Option String :=
  if (units bytes).all (·.isSome) then some (decodeLossy bytes) else none

end StreamingAcn.Text.Utf8
