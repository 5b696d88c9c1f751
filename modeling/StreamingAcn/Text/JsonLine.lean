/-
StreamingAcn.Text.JsonLine — flat JSON objects on one line.

A line is an object whose members are numbers, texts or lists of numbers, written without blanks in
the order in which they are given. In a text the quote, the backslash and the control characters
below U+0020 are escaped and everything else stands for itself, so no text can end a line early.

Definitions:

* `Cell`: a member's value;
* `escape`: how one character of a text is written;
* `write`: the line of a list of members.
-/
import StreamingAcn.Octets

namespace StreamingAcn.Text.JsonLine

inductive Cell
  | number (n : Nat)
  | text (s : String)
  | numbers (ns : List Nat)
  deriving DecidableEq

abbrev Member := String × Cell

/-- A character of a text as it is written; controls without a letter of their own get a number. -/
def escape (c : Char) : List Char :=
  if c = '"' then ['\\', '"']
  else if c = '\\' then ['\\', '\\']
  else if c = '\x08' then ['\\', 'b']
  else if c = '\x0c' then ['\\', 'f']
  else if c = '\n' then ['\\', 'n']
  else if c = '\r' then ['\\', 'r']
  else if c = '\t' then ['\\', 't']
  else if c.toNat < 32 then
    ['\\', 'u', '0', '0', Octets.hexDigit (c.toNat / 16), Octets.hexDigit (c.toNat % 16)]
  else [c]

def quote (s : List Char) : List Char := '"' :: s.flatMap escape ++ ['"']

/-- Pieces with commas between them. -/
def commaSeparated : List (List Char) → List Char
  | [] => []
  | [piece] => piece
  | piece :: rest => piece ++ ',' :: commaSeparated rest

def digits (n : Nat) : List Char := Nat.toDigits 10 n

def Cell.write : Cell → List Char
  | .number n => digits n
  | .text s => quote s.toList
  | .numbers ns => '[' :: commaSeparated (ns.map digits) ++ [']']

def writeMember (m : Member) : List Char := quote m.1.toList ++ ':' :: m.2.write

/-- The characters of an object with the given members. -/
def writeChars (members : List Member) : List Char :=
  '\x7b' :: commaSeparated (members.map writeMember) ++ ['\x7d']

def write (members : List Member) : String := String.ofList (writeChars members)

end StreamingAcn.Text.JsonLine
