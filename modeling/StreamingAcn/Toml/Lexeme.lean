/-
StreamingAcn.Toml.Lexeme — the smallest pieces of a settings file.

Blanks, line ends, comments, strings in their four spellings, whole numbers and keys. A reader
takes the characters in front of it and gives what it read with the characters that follow, or
nothing if what stands there is not well formed.
-/
import StreamingAcn.Octets
import StreamingAcn.Text.Numeral

namespace StreamingAcn.Toml

/-! ## Blanks, line ends and comments -/

def isBlank (c : Char) : Bool := c = ' ' || c = '\t'

/-- A character that comments and strings may hold as it is: no control but the tab. -/
def isPlain (c : Char) : Bool :=
  c = '\t' || (0x20 ≤ c.toNat && c.toNat ≤ 0x7e) || 0x80 ≤ c.toNat

def skipBlanks (text : List Char) : List Char := text.dropWhile isBlank

/-- Drop a line end in front. A carriage return ends a line only before a line feed. -/
def skipNewline? : List Char → Option (List Char)
  | '\n' :: rest => some rest
  | '\r' :: '\n' :: rest => some rest
  | _ => none

def skipComment : List Char → List Char
  | '#' :: rest => rest.dropWhile isPlain
  | text => text

/-- Drop what may end a line after a statement: blanks, a comment, and the line end or file end. -/
def endLine? (text : List Char) : Option (List Char) :=
  match skipComment (skipBlanks text) with
  | [] => some []
  | rest => skipNewline? rest

/-! ## Strings -/

/-- The quote that opens and closes strings without escapes. -/
def apostrophe : Char := '\x27'

/-- Put a character in front of what a reader of strings gives. -/
def prepend (c : Option Char) (r : Option (List Char × List Char)) :
    Option (List Char × List Char) :=
  match c, r with
  | some c, some (text, rest) => some (c :: text, rest)
  | _, _ => none

/-- The character that a letter behind a backslash stands for. -/
def escaped? (c : Char) : Option Char :=
  if c = 'b' then some '\x08'
  else if c = 't' then some '\t'
  else if c = 'n' then some '\n'
  else if c = 'f' then some '\x0c'
  else if c = 'r' then some '\r'
  else if c = '"' ∨ c = '\\' then some c
  else none

/-- The character whose code point some hexadecimal digits give. -/
def codePoint? (digits : List Char) : Option Char :=
  match digits.mapM Octets.hexValue? with
  | none => none
  | some values =>
    let n := values.foldl (fun n d => n * 16 + d) 0
    if n.isValidChar then some (Char.ofNat n) else none

/-- Read a string on one line after its opening quote, up to its closing quote. -/
def readBasic : List Char → Option (List Char × List Char)
  | [] => none
  | c :: rest =>
    if c = '"' then some ([], rest)
    else if c = '\\' then
      match rest with
      | [] => none
      | e :: rest =>
        if e = 'u' then
          match rest with
          | a :: b :: c :: d :: rest => prepend (codePoint? [a, b, c, d]) (readBasic rest)
          | _ => none
        else if e = 'U' then
          match rest with
          | a :: b :: c :: d :: e :: f :: g :: h :: rest =>
            prepend (codePoint? [a, b, c, d, e, f, g, h]) (readBasic rest)
          | _ => none
        else prepend (escaped? e) (readBasic rest)
    else if isPlain c then prepend (some c) (readBasic rest)
    else none

/-- Read a string without escapes on one line after its opening quote, up to its closing quote. -/
def readLiteral : List Char → Option (List Char × List Char)
  | [] => none
  | c :: rest =>
    if c = apostrophe then some ([], rest)
    else if isPlain c then prepend (some c) (readLiteral rest)
    else none

/--
Read the end of a string of several lines, where the third of its closing quotes has been read:
up to two quotes more belong to the string.
-/
def closeMany (quote : Char) : List Char → List Char × List Char
  | a :: b :: rest =>
    if a = quote ∧ b = quote then ([quote, quote], rest)
    else if a = quote then ([quote], b :: rest)
    else ([], a :: b :: rest)
  | [a] => if a = quote then ([quote], []) else ([], [a])
  | [] => ([], [])

/-- Whether two quotes stand in front. -/
def twoQuotes (quote : Char) : List Char → Bool
  | a :: b :: _ => a = quote && b = quote
  | _ => false

/-- Whether nothing but blanks stands in front of the next line end. -/
def blankLine (text : List Char) : Bool := (skipNewline? (skipBlanks text)).isSome

/--
Read a string of several lines after its opening quotes, up to its closing quotes. A backslash at
the end of a line leaves out everything up to the next character that is neither a blank nor a
line end; `skipping` says that the reader is behind such a backslash.
-/
def readManyBasic (skipping : Bool) : List Char → Option (List Char × List Char)
  | [] => none
  | c :: rest =>
    if c = '\r' then
      match rest with
      | '\n' :: rest =>
        if skipping then readManyBasic true rest else prepend (some '\n') (readManyBasic false rest)
      | _ => none
    else if skipping ∧ (isBlank c ∨ c = '\n') then readManyBasic true rest
    else if c = '"' then
      if twoQuotes '"' rest then some (closeMany '"' (rest.drop 2))
      else prepend (some c) (readManyBasic false rest)
    else if c = '\\' then
      if blankLine rest then readManyBasic true rest
      else
        match rest with
        | [] => none
        | e :: rest =>
          if e = 'u' then
            match rest with
            | a :: b :: c :: d :: rest =>
              prepend (codePoint? [a, b, c, d]) (readManyBasic false rest)
            | _ => none
          else if e = 'U' then
            match rest with
            | a :: b :: c :: d :: e :: f :: g :: h :: rest =>
              prepend (codePoint? [a, b, c, d, e, f, g, h]) (readManyBasic false rest)
            | _ => none
          else prepend (escaped? e) (readManyBasic false rest)
    else if c = '\n' ∨ isPlain c then prepend (some c) (readManyBasic false rest)
    else none

/-- Read a string of several lines without escapes after its opening quotes. -/
def readManyLiteral : List Char → Option (List Char × List Char)
  | [] => none
  | c :: rest =>
    if c = '\r' then
      match rest with
      | '\n' :: rest => prepend (some '\n') (readManyLiteral rest)
      | _ => none
    else if c = apostrophe then
      if twoQuotes apostrophe rest then some (closeMany apostrophe (rest.drop 2))
      else prepend (some c) (readManyLiteral rest)
    else if c = '\n' ∨ isPlain c then prepend (some c) (readManyLiteral rest)
    else none

def skipNewline (text : List Char) : List Char := (skipNewline? text).getD text

/-- Read a string in any spelling. A line end right behind three opening quotes is left out. -/
def readString (text : List Char) : Option (String × List Char) :=
  match text with
  | [] => none
  | q :: rest =>
    let body :=
      if q = '"' then
        if twoQuotes q rest then readManyBasic false (skipNewline (rest.drop 2)) else readBasic rest
      else if q = apostrophe then
        if twoQuotes q rest then readManyLiteral (skipNewline (rest.drop 2)) else readLiteral rest
      else none
    body.map fun (text, rest) => (String.ofList text, rest)

/-! ## Whole numbers -/

/-- Split off the digits in front, with single underscores between them left out. -/
def digitRun (isDigit : Char → Bool) : List Char → List Char × List Char
  | [] => ([], [])
  | c :: rest =>
    if isDigit c then
      let (digits, after) := digitRun isDigit rest
      (c :: digits, after)
    else if c = '_' ∧ (rest.head?.map isDigit).getD false then digitRun isDigit rest
    else ([], c :: rest)

/-- Read digits in a base. The first character has to be one. -/
def readDigits (base : Nat) (text : List Char) : Option (List Nat × List Char) :=
  let value? (c : Char) : Option Nat := (Octets.hexValue? c).filter (· < base)
  if (text.head?.bind value?).isSome then
    let (digits, rest) := digitRun (fun c => (value? c).isSome) text
    (digits.mapM value?).map fun values => (values, rest)
  else none

/-- The number that some digits stand for in a base. -/
def ofDigits (base : Nat) (digits : List Nat) : Nat := digits.foldl (fun n d => n * base + d) 0

def integerBound : Nat := 9223372036854775808

/-- Read a decimal number without leading zeros. -/
def readDecimal (text : List Char) : Option (Nat × List Char) :=
  match readDigits 10 text with
  | some (digits, rest) =>
    if 1 < digits.length ∧ digits.head? = some 0 then none else some (ofDigits 10 digits, rest)
  | none => none

/-- Read a number in the base that a letter behind a zero names. -/
def readBased (text : List Char) : Option (Nat × List Char) :=
  let base? := match text with
    | '0' :: 'x' :: _ => some 16
    | '0' :: 'o' :: _ => some 8
    | '0' :: 'b' :: _ => some 2
    | _ => none
  match base? with
  | some base =>
    (readDigits base (text.drop 2)).map fun (digits, rest) => (ofDigits base digits, rest)
  | none => readDecimal text

/-- Read a whole number of 64 bits; only a decimal one may have a sign. -/
def readInteger (text : List Char) : Option (Int × List Char) :=
  match text with
  | '-' :: rest =>
    (readDecimal rest).bind fun (n, rest) =>
      if n ≤ integerBound then some (-(n : Int), rest) else none
  | '+' :: rest =>
    (readDecimal rest).bind fun (n, rest) =>
      if n < integerBound then some ((n : Int), rest) else none
  | _ =>
    (readBased text).bind fun (n, rest) => if n < integerBound then some ((n : Int), rest) else none

/-! ## Keys -/

def isBare (c : Char) : Bool :=
  ('a' ≤ c && c ≤ 'z') || ('A' ≤ c && c ≤ 'Z') || Text.isDigit c || c = '_' || c = '-'

def readKeyPart (text : List Char) : Option (String × List Char) :=
  match text with
  | [] => none
  | q :: rest =>
    if q = '"' then (readBasic rest).map fun (key, rest) => (String.ofList key, rest)
    else if q = apostrophe then (readLiteral rest).map fun (key, rest) => (String.ofList key, rest)
    else if isBare q then some (String.ofList (text.takeWhile isBare), text.dropWhile isBare)
    else none

/-- Read a key: one or more parts between dots, with blanks around each part. -/
def readKey : (fuel : Nat) → List Char → Option (List String × List Char)
  | 0, _ => none
  | fuel + 1, text =>
    match readKeyPart (skipBlanks text) with
    | none => none
    | some (part, rest) =>
      match skipBlanks rest with
      | '.' :: rest => (readKey fuel rest).map fun (parts, rest) => (part :: parts, rest)
      | rest => some ([part], rest)

end StreamingAcn.Toml
