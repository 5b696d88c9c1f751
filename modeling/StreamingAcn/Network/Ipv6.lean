/-
StreamingAcn.Network.Ipv6 — eight-group network addresses and their text.

An address is written as groups of up to four hexadecimal digits between colons. One run of zero
groups may be left out for a double colon, and a dotted four-octet address may stand for the last
two groups. The text form of an address leaves out the first of its longest runs of zero groups.
-/
import StreamingAcn.Network.Ipv4
import StreamingAcn.Octets

namespace StreamingAcn.Network

/-- A network address of eight 16-bit groups. -/
structure Ipv6 where
  groups : List UInt16
  length_groups : groups.length = 8
  deriving DecidableEq

namespace Ipv6

/-! ## Text form -/

/-- The number of zero groups at the front of a list of groups. -/
def leadingZeros (groups : List UInt16) : Nat := (groups.takeWhile (· = 0)).length

/-- Where the first of the longest runs of zero groups starts, and its length. -/
def longestZeros (groups : List UInt16) : Nat × Nat :=
  (List.range groups.length).foldl
    (fun best i =>
      let n := leadingZeros (groups.drop i)
      if best.2 < n then (i, n) else best)
    (0, 0)

def joinGroups (groups : List UInt16) : String :=
  ":".intercalate (groups.map (fun g => String.ofList (Nat.toDigits 16 g.toNat)))

/-- The four-octet address that this one carries behind `::ffff:`, if it does. -/
def mapped? (ip : Ipv6) : Option Ipv4 :=
  match ip.groups with
  | [0, 0, 0, 0, 0, 0xffff, hi, lo] =>
    some ⟨Octets.high hi, Octets.low hi, Octets.high lo, Octets.low lo⟩
  | _ => none

/-- The text of an address. A run of a single zero group is written out. -/
def text (ip : Ipv6) : String :=
  match ip.mapped? with
  | some v4 => "::ffff:" ++ v4.text
  | none =>
    let (start, length) := longestZeros ip.groups
    if 1 < length then
      joinGroups (ip.groups.take start) ++ "::" ++ joinGroups (ip.groups.drop (start + length))
    else joinGroups ip.groups

/-! ## Reading -/

/-- Read a group in front of a text: one to four hexadecimal digits. -/
def readGroup? (text : List Char) : Option (UInt16 × List Char) :=
  let (digits, rest) := text.span (fun c => (Octets.hexValue? c).isSome)
  if digits.isEmpty ∨ 4 < digits.length then none
  else
    let n := digits.foldl (fun n c => n * 16 + (Octets.hexValue? c).getD 0) 0
    some (UInt16.ofNat n, rest)

/-- What `readGroups` finds: the groups, whether a dotted address ended them, and the rest. -/
structure Reading where
  groups : List UInt16
  dotted : Bool
  rest : List Char

/--
Read up to `limit` groups between colons. Where two groups may still follow, a dotted address is
tried first and ends the reading. Reading stops in front of the first thing that is no group.
-/
def readGroups : (limit : Nat) → (atStart : Bool) → List Char → Reading
  | 0, _, text => ⟨[], false, text⟩
  | left + 1, atStart, text =>
    match if atStart then some text else Text.skip? ':' text with
    | none => ⟨[], false, text⟩
    | some body =>
      match if 0 < left then Ipv4.read? body else none with
      | some (v4, rest) =>
        ⟨[Octets.joinWord v4.a v4.b, Octets.joinWord v4.c v4.d], true, rest⟩
      | none =>
        match readGroup? body with
        | none => ⟨[], false, text⟩
        | some (g, rest) =>
          let more := readGroups left false rest
          ⟨g :: more.groups, more.dotted, more.rest⟩

def ofGroups? (groups : List UInt16) : Option Ipv6 :=
  if h : groups.length = 8 then some ⟨groups, h⟩ else none

/--
Read an address in front of a text: eight groups, or fewer with a double colon between them that
stands for at least one zero group. A dotted address may not stand in front of the double colon.
-/
def read? (text : List Char) : Option (Ipv6 × List Char) := do
  let front := readGroups 8 true text
  if front.groups.length = 8 then
    return (← ofGroups? front.groups, front.rest)
  else if front.dotted then none
  else
    let rest ← Text.skip? ':' (← Text.skip? ':' front.rest)
    let back := readGroups (7 - front.groups.length) true rest
    let gap := 8 - front.groups.length - back.groups.length
    return (← ofGroups? (front.groups ++ List.replicate gap 0 ++ back.groups), back.rest)

end Ipv6

end StreamingAcn.Network
