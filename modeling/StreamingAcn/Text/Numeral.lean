/-
StreamingAcn.Text.Numeral — decimal numerals and the marks between them.

`skip?` reads one expected character. `decimalValue` is the number that a run of digits stands for,
whatever its leading zeros; `unsigned?` reads a whole text as a number below a bound.
-/

namespace StreamingAcn.Text

/-- Drop an expected character in front of a text. -/
def skip? (c : Char) : List Char → Option (List Char)
  | [] => none
  | c' :: rest => if c' = c then some rest else none

def isDigit (c : Char) : Bool := '0' ≤ c ∧ c ≤ '9'

/-- The number that a run of decimal digits stands for. -/
def decimalValue (digits : List Char) : Nat :=
  digits.foldl (fun n c => n * 10 + (c.toNat - 48)) 0

/--
The number that a text spells: one or more digits, with at most one plus sign in front, for a
number below the bound.
-/
def unsigned? (bound : Nat) (text : List Char) : Option Nat :=
  let digits := match text with
    | '+' :: rest => rest
    | _ => text
  if digits.isEmpty ∨ !digits.all isDigit then none
  else
    let n := decimalValue digits
    if n < bound then some n else none

end StreamingAcn.Text
