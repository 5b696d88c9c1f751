/-
StreamingAcn.Proofs.Text.JsonLine — what is read of a line in JSON.

Lines are written to be read by others, so what a line says is told by a reader of JSON: blanks may
stand between its marks, texts may be escaped in any way that the format knows, and a number begins
with a zero only if it is zero. Of JSON it reads the objects whose members are numbers without sign
or fraction, texts, and lists of such numbers, each name once. What was written is read back, and
nothing in a text can end it early or break the line.

The reader goes through a line in two passes. The first makes tokens of its characters, the second
makes members of its tokens; each of them goes on one step at a time from where it stands.

Definitions:

* `Token`, `Scan`, `tokens?`: the first pass;
* `Place`, `membersFrom`: the second pass;
* `read?`: the members of the object that a line is.

Main statements:

* `read?_write`: what is written under different names is read back;
* `isPrintable_of_mem_write`: no control character stands in a line.
-/
import StreamingAcn.Text.JsonLine
import StreamingAcn.Text.Numeral
import Mathlib.Data.List.Basic

namespace StreamingAcn.Text.JsonLine

/-! ## Reading tokens -/

/-- What a line is made of. -/
inductive Token
  /-- A brace, a bracket, a colon or a comma. -/
  | mark (c : Char)
  | number (n : Nat)
  | text (s : String)
  deriving DecidableEq

def isBlank (c : Char) : Bool := c = ' ' || c = '\t' || c = '\n' || c = '\r'

def isMark (c : Char) : Bool :=
  c = '\x7b' || c = '\x7d' || c = '[' || c = ']' || c = ':' || c = ','

/-- The character that a letter behind a backslash stands for. -/
def escaped? (c : Char) : Option Char :=
  if c = '"' ∨ c = '\\' ∨ c = '/' then some c
  else if c = 'b' then some '\x08'
  else if c = 'f' then some '\x0c'
  else if c = 'n' then some '\n'
  else if c = 'r' then some '\r'
  else if c = 't' then some '\t'
  else none

/-- What the characters read so far leave open. In a text `front` is what was read of it. -/
inductive Scan
  | between
  | number (digits : List Char)
  | text (front : List Char)
  /-- Behind a backslash. -/
  | escape (front : List Char)
  /-- Inside of a code unit of four digits, of which `later` are due after the next one. `lead` is
  the unit in front, if that was the first of a pair. -/
  | unit (front : List Char) (lead : Option Nat) (later : Nat) (value : Nat)
  /-- Behind the first unit of a pair. -/
  | half (front : List Char) (lead : Nat)
  /-- Behind the first unit of a pair and a backslash. -/
  | halfEscape (front : List Char) (lead : Nat)

/-- The tokens that a character completes, and what is open behind it. -/
abbrev Advance := List Token × Scan

/-- The effect of a character between tokens. -/
def opening (c : Char) : Option Advance :=
  if isBlank c then some ([], .between)
  else if isMark c then some ([.mark c], .between)
  else if c = '"' then some ([], .text [])
  else if isDigit c then some ([], .number [c])
  else none

/-- The number that some digits are. More digits than one do not begin with a zero. -/
def number? (digits : List Char) : Option Token :=
  if digits.head? = some '0' ∧ 1 < digits.length then none
  else some (.number (decimalValue digits))

/-- What is open behind a code unit: a text with one more character, or the first half of one. -/
def closeUnit (front : List Char) (lead : Option Nat) (value : Nat) : Option Scan :=
  let isLead := 0xD800 ≤ value ∧ value < 0xDC00
  let isTrail := 0xDC00 ≤ value ∧ value < 0xE000
  match lead with
  | none =>
    if isLead then some (.half front value)
    else if isTrail then none
    else some (.text (front ++ [Char.ofNat value]))
  | some lead =>
    if isTrail then
      some (.text (front ++ [Char.ofNat (0x10000 + (lead - 0xD800) * 0x400 + (value - 0xDC00))]))
    else none

/-- The effect of a character. `none` if no line can go on with it. -/
def step : Scan → Char → Option Advance
  | .between, c => opening c
  | .number digits, c =>
    if isDigit c then some ([], .number (digits ++ [c]))
    else
      match number? digits, opening c with
      | some token, some (tokens, scan) => some (token :: tokens, scan)
      | _, _ => none
  | .text front, c =>
    if c = '"' then some ([.text (String.ofList front)], .between)
    else if c = '\\' then some ([], .escape front)
    else if c.toNat < 0x20 then none
    else some ([], .text (front ++ [c]))
  | .escape front, c =>
    if c = 'u' then some ([], .unit front none 3 0)
    else (escaped? c).map fun e => ([], .text (front ++ [e]))
  | .unit front lead later value, c =>
    match Octets.hexValue? c, later with
    | none, _ => none
    | some digit, 0 => (closeUnit front lead (value * 16 + digit)).map fun scan => ([], scan)
    | some digit, later + 1 => some ([], .unit front lead later (value * 16 + digit))
  | .half front lead, c => if c = '\\' then some ([], .halfEscape front lead) else none
  | .halfEscape front lead, c => if c = 'u' then some ([], .unit front (some lead) 3 0) else none

/-- The tokens of the characters that follow something open. -/
def tokensFrom : Scan → List Char → Option (List Token)
  | .between, [] => some []
  | .number digits, [] => (number? digits).map fun token => [token]
  | _, [] => none
  | scan, c :: rest =>
    match step scan c with
    | none => none
    | some (tokens, scan) => (tokensFrom scan rest).map fun later => tokens ++ later

/-- The tokens of a line. -/
def tokens? (line : List Char) : Option (List Token) := tokensFrom .between line

/-! ## Reading members -/

/-- Where in an object a token stands. -/
inductive Place
  | start
  /-- Behind the opening brace. -/
  | opened
  /-- Where a name is due. -/
  | name
  | colon (name : String)
  | cell (name : String)
  /-- Behind the opening bracket of a list. -/
  | listed (name : String)
  /-- Where a number of a list is due, behind those read. -/
  | number (name : String) (front : List Nat)
  /-- Behind a number of a list. -/
  | numbered (name : String) (front : List Nat)
  /-- Behind a whole member. -/
  | past (m : Member)
  /-- Behind the closing brace. -/
  | closed

/-- The members that the tokens from a place on complete, up to the end of the object. -/
def membersFrom : Place → List Token → Option (List Member)
  | .closed, [] => some []
  | _, [] => none
  | place, token :: rest =>
    match place, token with
    | .start, .mark '\x7b' => membersFrom .opened rest
    | .opened, .mark '\x7d' => membersFrom .closed rest
    | .opened, .text s => membersFrom (.colon s) rest
    | .name, .text s => membersFrom (.colon s) rest
    | .colon s, .mark ':' => membersFrom (.cell s) rest
    | .cell s, .number n => membersFrom (.past (s, .number n)) rest
    | .cell s, .text t => membersFrom (.past (s, .text t)) rest
    | .cell s, .mark '[' => membersFrom (.listed s) rest
    | .listed s, .mark ']' => membersFrom (.past (s, .numbers [])) rest
    | .listed s, .number n => membersFrom (.numbered s [n]) rest
    | .number s front, .number n => membersFrom (.numbered s (front ++ [n])) rest
    | .numbered s front, .mark ',' => membersFrom (.number s front) rest
    | .numbered s front, .mark ']' => membersFrom (.past (s, .numbers front)) rest
    | .past m, .mark ',' => (membersFrom .name rest).map (m :: ·)
    | .past m, .mark '\x7d' => (membersFrom .closed rest).map (m :: ·)
    | _, _ => none

/-- The members of the object that a line is, each under a name of its own. -/
def read? (line : String) : Option (List Member) :=
  ((tokens? line.toList).bind (membersFrom .start)).filter fun members =>
    (members.map (·.1)).Nodup

/-! ## Texts are read back -/

theorem tokensFrom_cons {scan next : Scan} {c : Char} {tokens : List Token}
    (h : step scan c = some (tokens, next)) (rest : List Char) :
    tokensFrom scan (c :: rest) = (tokensFrom next rest).map (tokens ++ ·) := by
  rw [tokensFrom.eq_def]
  cases scan <;> simp only [h]

/-- A character that completes no token. -/
theorem tokensFrom_cons_nil {scan next : Scan} {c : Char} (h : step scan c = some ([], next))
    (rest : List Char) : tokensFrom scan (c :: rest) = tokensFrom next rest := by
  rw [tokensFrom_cons h]
  simp

theorem tokensFrom_plain {front : List Char} {c : Char} (hquote : c ≠ '"') (hslash : c ≠ '\\')
    (hcontrol : ¬ c.toNat < 0x20) (rest : List Char) :
    tokensFrom (.text front) (c :: rest) = tokensFrom (.text (front ++ [c])) rest := by
  refine tokensFrom_cons_nil ?_ rest
  rw [step, if_neg hquote, if_neg hslash, if_neg hcontrol]

theorem tokensFrom_escaped {front : List Char} {e c : Char} (h : escaped? e = some c)
    (hunit : e ≠ 'u') (rest : List Char) :
    tokensFrom (.text front) ('\\' :: e :: rest) = tokensFrom (.text (front ++ [c])) rest := by
  have hslash : step (.text front) '\\' = some ([], .escape front) := rfl
  have hescape : step (.escape front) e = some ([], .text (front ++ [c])) := by
    rw [step, if_neg hunit, h]
    rfl
  rw [tokensFrom_cons_nil hslash, tokensFrom_cons_nil hescape]

/-- A control character is read back from the two digits of its number. -/
theorem tokensFrom_control (front : List Char) {high low : Nat} (hhigh : high < 2)
    (hlow : low < 16) (rest : List Char) :
    tokensFrom (.text front)
        ('\\' :: 'u' :: '0' :: '0' :: Octets.hexDigit high :: Octets.hexDigit low :: rest) =
      tokensFrom (.text (front ++ [Char.ofNat (high * 16 + low)])) rest := by
  have hslash : step (.text front) '\\' = some ([], .escape front) := rfl
  have hunit : step (.escape front) 'u' = some ([], .unit front none 3 0) := rfl
  have hfirst : step (.unit front none 3 0) '0' = some ([], .unit front none 2 0) := rfl
  have hsecond : step (.unit front none 2 0) '0' = some ([], .unit front none 1 0) := rfl
  have hthird : step (.unit front none 1 0) (Octets.hexDigit high) =
      some ([], .unit front none 0 high) := by
    simp [step, Octets.hexValue?_hexDigit high (by omega)]
  have hlead : ¬ (0xD800 ≤ high * 16 + low ∧ high * 16 + low < 0xDC00) := by omega
  have htrail : ¬ (0xDC00 ≤ high * 16 + low ∧ high * 16 + low < 0xE000) := by omega
  have hfourth : step (.unit front none 0 high) (Octets.hexDigit low) =
      some ([], .text (front ++ [Char.ofNat (high * 16 + low)])) := by
    simp [step, closeUnit, Octets.hexValue?_hexDigit low hlow, hlead, htrail]
  rw [tokensFrom_cons_nil hslash, tokensFrom_cons_nil hunit, tokensFrom_cons_nil hfirst,
    tokensFrom_cons_nil hsecond, tokensFrom_cons_nil hthird, tokensFrom_cons_nil hfourth]

/-- A character is written in one of three ways: as a letter behind a backslash that stands for it,
as the number of a control character, or as it is. -/
theorem escape_cases (c : Char) :
    (∃ e, escape c = ['\\', e] ∧ escaped? e = some c ∧ e ≠ 'u' ∧ 0x20 ≤ e.toNat) ∨
      (c.toNat < 0x20 ∧ escape c = ['\\', 'u', '0', '0', Octets.hexDigit (c.toNat / 16),
        Octets.hexDigit (c.toNat % 16)]) ∨
      (c ≠ '"' ∧ c ≠ '\\' ∧ ¬ c.toNat < 0x20 ∧ escape c = [c]) := by
  unfold escape
  split_ifs with hquote hslash hb hf hn hr ht hcontrol
  any_goals
    subst c
    exact .inl ⟨_, rfl, by decide, by decide, by decide⟩
  · exact .inr (.inl ⟨hcontrol, rfl⟩)
  · exact .inr (.inr ⟨hquote, hslash, hcontrol, rfl⟩)

/-- A character of a text is read back from the way it is written. -/
theorem tokensFrom_escape (front : List Char) (c : Char) (rest : List Char) :
    tokensFrom (.text front) (escape c ++ rest) = tokensFrom (.text (front ++ [c])) rest := by
  rcases escape_cases c with ⟨e, he, hmeans, hunit, -⟩ | ⟨hcontrol, he⟩ |
    ⟨hquote, hslash, hplain, he⟩
  · rw [he]
    exact tokensFrom_escaped hmeans hunit rest
  · have hnumber : c.toNat / 16 * 16 + c.toNat % 16 = c.toNat := by omega
    have hhigh : c.toNat / 16 < 2 := by omega
    have hlow : c.toNat % 16 < 16 := Nat.mod_lt _ (by decide)
    have hread := tokensFrom_control front hhigh hlow rest
    rw [hnumber, Char.ofNat_toNat] at hread
    rw [he]
    exact hread
  · rw [he]
    exact tokensFrom_plain hquote hslash hplain rest

theorem tokensFrom_flatMap_escape (front cs rest : List Char) :
    tokensFrom (.text front) (cs.flatMap escape ++ '"' :: rest) =
      (tokensFrom .between rest).map (.text (String.ofList (front ++ cs)) :: ·) := by
  induction cs generalizing front with
  | nil =>
    rw [List.flatMap_nil, List.nil_append, List.append_nil, tokensFrom_cons rfl]
    rfl
  | cons c cs ih =>
    rw [List.flatMap_cons, List.append_assoc, tokensFrom_escape, ih, List.append_assoc,
      List.singleton_append]

/-! ## Numbers are read back -/

theorem isDigit_of_mem_digits {n : Nat} {c : Char} (h : c ∈ digits n) : isDigit c = true := by
  have hc := Nat.isDigit_of_mem_toDigits (by decide) (by decide) h
  simp only [Char.isDigit, Bool.and_eq_true, decide_eq_true_eq] at hc
  exact decide_eq_true hc

theorem decimalValue_digits (n : Nat) : decimalValue (digits n) = n := by
  have h := Nat.ofDigitChars_ten_toDigits (n := n)
  rw [Nat.ofDigitChars_eq_foldl] at h
  simpa [decimalValue, digits, Nat.mul_comm] using h

/-- Only zero is written with a zero in front. -/
theorem head?_digits {n : Nat} (h : n ≠ 0) : (digits n).head? ≠ some '0' := by
  induction n using Nat.strongRecOn with
  | ind n ih =>
    rw [digits, Nat.toDigits_eq_if (by decide)]
    split_ifs with hlt
    · have hdigit : ∀ d < 10, d ≠ 0 → [d.digitChar].head? ≠ some '0' := by decide
      exact hdigit n hlt h
    · rw [List.head?_append_of_ne_nil _ Nat.toDigits_ne_nil]
      exact ih (n / 10) (by omega) (by omega)

theorem number?_digits (n : Nat) : number? (digits n) = some (.number n) := by
  have hfine : ¬ ((digits n).head? = some '0' ∧ 1 < (digits n).length) := by
    rintro ⟨hhead, hlength⟩
    have hzero : n = 0 := by_contra fun h => head?_digits h hhead
    rw [hzero] at hlength
    exact absurd hlength (by decide)
  rw [number?, if_neg hfine, decimalValue_digits]

theorem not_isDigit_of_isMark {c : Char} (h : isMark c) : ¬ isDigit c = true := by
  simp only [isMark, Bool.or_eq_true, decide_eq_true_eq] at h
  rcases h with ((((rfl | rfl) | rfl) | rfl) | rfl) | rfl <;> decide

theorem opening_mark {c : Char} (h : isMark c) : opening c = some ([.mark c], .between) := by
  have hblank : ¬ isBlank c = true := by
    simp only [isMark, Bool.or_eq_true, decide_eq_true_eq] at h
    rcases h with ((((rfl | rfl) | rfl) | rfl) | rfl) | rfl <;> decide
  rw [opening, if_neg hblank, if_pos h]

theorem tokensFrom_mark {c : Char} (h : isMark c) (rest : List Char) :
    tokensFrom .between (c :: rest) = (tokensFrom .between rest).map (.mark c :: ·) := by
  have hstep : step .between c = some ([.mark c], .between) := opening_mark h
  exact tokensFrom_cons hstep rest

theorem opening_digit {c : Char} (h : isDigit c = true) : opening c = some ([], .number [c]) := by
  have hblank : ¬ isBlank c = true := by
    intro hblank
    simp only [isBlank, Bool.or_eq_true, decide_eq_true_eq] at hblank
    rcases hblank with ((rfl | rfl) | rfl) | rfl <;> exact absurd h (by decide)
  have hmark : ¬ isMark c = true := fun hmark => not_isDigit_of_isMark hmark h
  have hquote : c ≠ '"' := by
    rintro rfl
    exact absurd h (by decide)
  rw [opening, if_neg hblank, if_neg hmark, if_neg hquote, if_pos h]

theorem tokensFrom_number (front ds : List Char) (hds : ∀ d ∈ ds, isDigit d = true)
    (rest : List Char) :
    tokensFrom (.number front) (ds ++ rest) = tokensFrom (.number (front ++ ds)) rest := by
  induction ds generalizing front with
  | nil => rw [List.nil_append, List.append_nil]
  | cons d ds ih =>
    have hstep : step (.number front) d = some ([], .number (front ++ [d])) := by
      rw [step, if_pos (hds d List.mem_cons_self)]
    rw [List.cons_append, tokensFrom_cons_nil hstep,
      ih _ fun x hx => hds x (List.mem_cons_of_mem d hx), List.append_assoc, List.singleton_append]

/-- A number is read back from its digits where a mark follows them. -/
theorem tokensFrom_digits (n : Nat) {c : Char} (hc : isMark c) (rest : List Char) :
    tokensFrom .between (digits n ++ c :: rest) =
      (tokensFrom .between (c :: rest)).map (.number n :: ·) := by
  obtain ⟨d, ds, hds⟩ := List.exists_cons_of_ne_nil (l := digits n) Nat.toDigits_ne_nil
  have hall : ∀ x ∈ d :: ds, isDigit x = true := fun x hx => isDigit_of_mem_digits (hds ▸ hx)
  have hfirst : step .between d = some ([], .number [d]) :=
    opening_digit (hall d List.mem_cons_self)
  have hmark : step (.number (digits n)) c = some ([.number n, .mark c], .between) := by
    rw [step, if_neg (not_isDigit_of_isMark hc), number?_digits, opening_mark hc]
  rw [hds, List.cons_append, tokensFrom_cons_nil hfirst,
    tokensFrom_number [d] ds fun x hx => hall x (List.mem_cons_of_mem d hx), List.singleton_append,
    ← hds, tokensFrom_cons hmark, tokensFrom_mark hc, Option.map_map]
  rfl

/-! ## Tokens of what is written -/

/-- Some characters are the tokens given, whatever mark follows them. -/
def Spells (chars : List Char) (tokens : List Token) : Prop :=
  ∀ c rest, isMark c → tokensFrom .between (chars ++ c :: rest) =
    (tokensFrom .between (c :: rest)).map (tokens ++ ·)

theorem spells_nil : Spells [] [] := fun c rest _ => by simp

theorem spells_digits (n : Nat) : Spells (digits n) [.number n] :=
  fun _ rest hc => tokensFrom_digits n hc rest

theorem spells_quote (s : String) : Spells (quote s.toList) [.text s] := by
  intro c rest hc
  have hquote : quote s.toList ++ c :: rest = '"' :: (s.toList.flatMap escape ++ '"' :: c :: rest) := by
    simp [quote]
  have hopen : step .between '"' = some ([], .text []) := rfl
  rw [hquote, tokensFrom_cons_nil hopen, tokensFrom_flatMap_escape,
    List.nil_append, String.ofList_toList]
  rfl

/-- Two pieces with a mark between them. -/
theorem Spells.join {as bs : List Char} {ss ts : List Token} (has : Spells as ss)
    (hbs : Spells bs ts) {m : Char} (hm : isMark m) :
    Spells (as ++ m :: bs) (ss ++ .mark m :: ts) := by
  intro c rest hc
  rw [List.append_assoc, List.cons_append, has m _ hm, tokensFrom_mark hm,
    hbs c rest hc, Option.map_map, Option.map_map]
  congr 1
  funext later
  simp

/-- Tokens with commas between them. -/
def joined : List (List Token) → List Token
  | [] => []
  | [piece] => piece
  | piece :: rest => piece ++ .mark ',' :: joined rest

theorem spells_commaSeparated {α : Type} {write : α → List Char} {tokens : α → List Token}
    (h : ∀ a, Spells (write a) (tokens a)) (as : List α) :
    Spells (commaSeparated (as.map write)) (joined (as.map tokens)) := by
  induction as with
  | nil => exact spells_nil
  | cons a rest ih =>
    cases rest with
    | nil => exact h a
    | cons b rest => exact (h a).join ih rfl

def Cell.tokens : Cell → List Token
  | .number n => [.number n]
  | .text s => [.text s]
  | .numbers ns => .mark '[' :: joined (ns.map fun n => [.number n]) ++ [.mark ']']

def memberTokens (m : Member) : List Token := .text m.1 :: .mark ':' :: m.2.tokens

theorem spells_cell (cell : Cell) : Spells cell.write cell.tokens := by
  cases cell with
  | number n => exact spells_digits n
  | text s => exact spells_quote s
  | numbers ns =>
    exact (spells_nil.join (spells_commaSeparated spells_digits ns) (m := '[') rfl).join
      spells_nil (m := ']') rfl

theorem spells_member (m : Member) : Spells (writeMember m) (memberTokens m) :=
  (spells_quote m.1).join (spells_cell m.2) (m := ':') rfl

/-- The tokens of a line. -/
theorem tokens?_writeChars (members : List Member) :
    tokens? (writeChars members) =
      some (.mark '\x7b' :: joined (members.map memberTokens) ++ [.mark '\x7d']) := by
  have hbody := spells_commaSeparated spells_member members '\x7d' [] rfl
  rw [tokens?, writeChars, List.cons_append, tokensFrom_mark rfl, hbody]
  rfl

/-! ## Members of what is written -/

theorem joined_cons {piece : List Token} {rest : List (List Token)} (h : rest ≠ []) :
    joined (piece :: rest) = piece ++ .mark ',' :: joined rest := by
  cases rest with
  | nil => exact absurd rfl h
  | cons next rest => rfl

/-- The numbers of a list are read up to its end. -/
theorem membersFrom_numbers (s : String) (front : List Nat) (n : Nat) (ns : List Nat)
    (rest : List Token) :
    membersFrom (.number s front)
        (joined ((n :: ns).map fun n => [.number n]) ++ .mark ']' :: rest) =
      membersFrom (.past (s, .numbers (front ++ n :: ns))) rest := by
  induction ns generalizing front n with
  | nil => rfl
  | cons m ns ih =>
    have hnext := ih (front ++ [n]) m
    rw [List.append_assoc, List.singleton_append] at hnext
    exact hnext

theorem membersFrom_cell (s : String) (cell : Cell) (rest : List Token) :
    membersFrom (.cell s) (cell.tokens ++ rest) = membersFrom (.past (s, cell)) rest := by
  cases cell with
  | number n => rfl
  | text t => rfl
  | numbers ns =>
    rw [Cell.tokens, List.append_assoc, List.singleton_append]
    cases ns with
    | nil => rfl
    | cons n ns =>
      -- Behind the bracket the first number is read as any later one would be.
      have hfirst : membersFrom (.listed s)
          (joined ((n :: ns).map fun n => [.number n]) ++ .mark ']' :: rest) =
          membersFrom (.number s [])
            (joined ((n :: ns).map fun n => [.number n]) ++ .mark ']' :: rest) := by
        cases ns with
        | nil => rfl
        | cons m ns => rfl
      exact hfirst.trans (membersFrom_numbers s [] n ns rest)

theorem membersFrom_member (m : Member) (rest : List Token) :
    membersFrom .name (memberTokens m ++ rest) = membersFrom (.past m) rest :=
  membersFrom_cell m.1 m.2 rest

theorem membersFrom_members (m : Member) (ms : List Member) :
    membersFrom .name (joined ((m :: ms).map memberTokens) ++ [.mark '\x7d']) = some (m :: ms) := by
  induction ms generalizing m with
  | nil =>
    rw [List.map_singleton, joined, membersFrom_member]
    rfl
  | cons n ms ih =>
    rw [List.map_cons, joined_cons (by simp), List.append_assoc, membersFrom_member,
      List.cons_append]
    have hcomma : ∀ later, membersFrom (.past m) (.mark ',' :: later) =
        (membersFrom .name later).map (m :: ·) := fun _ => rfl
    rw [hcomma, ih]
    rfl

/-- The members of what is written are read, whatever their names are. -/
theorem membersFrom_writeChars (members : List Member) :
    (tokens? (writeChars members)).bind (membersFrom .start) = some members := by
  rw [tokens?_writeChars, Option.bind_some]
  cases members with
  | nil => rfl
  | cons m ms =>
    -- Behind the brace the first member is read as any later one would be.
    have hfirst : membersFrom .opened (joined ((m :: ms).map memberTokens) ++ [.mark '\x7d']) =
        membersFrom .name (joined ((m :: ms).map memberTokens) ++ [.mark '\x7d']) := by
      cases ms with
      | nil => rfl
      | cons n ms => rfl
    exact hfirst.trans (membersFrom_members m ms)

/-- What is written under different names is read back. -/
theorem read?_write {members : List Member} (h : (members.map (·.1)).Nodup) :
    read? (write members) = some members := by
  rw [read?, write, String.toList_ofList, membersFrom_writeChars, Option.filter_some,
    if_pos (decide_eq_true h)]

/-- Different members make different lines. -/
theorem write_inj {as bs : List Member} (ha : (as.map (·.1)).Nodup) (hb : (bs.map (·.1)).Nodup) :
    write as = write bs ↔ as = bs := by
  constructor
  · intro h
    have hread : read? (write as) = some bs := h ▸ read?_write hb
    exact Option.some.inj ((read?_write ha).symm.trans hread)
  · exact congrArg write

/-! ## No control character is written -/

/-- Whether a character is no control character below U+0020. -/
def IsPrintable (c : Char) : Prop := 0x20 ≤ c.toNat

instance (c : Char) : Decidable (IsPrintable c) := inferInstanceAs (Decidable (0x20 ≤ c.toNat))

theorem isPrintable_of_mem_digits {n : Nat} {c : Char} (h : c ∈ digits n) : IsPrintable c := by
  have hdigit : '0'.toNat ≤ c.toNat := (of_decide_eq_true (isDigit_of_mem_digits h)).1
  exact Nat.le_trans (by decide) hdigit

theorem isPrintable_hexDigit : ∀ n < 16, IsPrintable (Octets.hexDigit n) := by decide

theorem isPrintable_of_mem_escape {c x : Char} (h : x ∈ escape c) : IsPrintable x := by
  rcases escape_cases c with ⟨e, he, -, -, hprintable⟩ | ⟨hcontrol, he⟩ | ⟨-, -, hplain, he⟩
  · rw [he, List.mem_pair] at h
    rcases h with rfl | rfl
    · decide
    · exact hprintable
  · rw [he] at h
    simp only [List.mem_cons, List.not_mem_nil, or_false] at h
    rcases h with rfl | rfl | rfl | rfl | rfl | rfl
    any_goals decide
    · exact isPrintable_hexDigit _ (by omega)
    · exact isPrintable_hexDigit _ (by omega)
  · rw [he, List.mem_singleton] at h
    exact h ▸ Nat.le_of_not_lt hplain

theorem isPrintable_of_mem_quote {s : List Char} {x : Char} (h : x ∈ quote s) : IsPrintable x := by
  rw [quote, List.cons_append, List.mem_cons, List.mem_append, List.mem_singleton] at h
  rcases h with rfl | h | rfl
  · decide
  · obtain ⟨c, -, hx⟩ := List.mem_flatMap.1 h
    exact isPrintable_of_mem_escape hx
  · decide

theorem mem_commaSeparated {pieces : List (List Char)} {x : Char} (h : x ∈ commaSeparated pieces) :
    x = ',' ∨ ∃ piece ∈ pieces, x ∈ piece := by
  induction pieces with
  | nil => exact absurd h List.not_mem_nil
  | cons piece rest ih =>
    cases rest with
    | nil => exact .inr ⟨piece, List.mem_cons_self, h⟩
    | cons next rest =>
      rw [commaSeparated, List.mem_append, List.mem_cons] at h
      · rcases h with h | h | h
        · exact .inr ⟨piece, List.mem_cons_self, h⟩
        · exact .inl h
        · rcases ih h with h | ⟨later, hlater, h⟩
          · exact .inl h
          · exact .inr ⟨later, List.mem_cons_of_mem piece hlater, h⟩
      · exact fun h => absurd h (List.cons_ne_nil next rest)

theorem isPrintable_of_mem_cell {cell : Cell} {x : Char} (h : x ∈ cell.write) : IsPrintable x := by
  cases cell with
  | number n => exact isPrintable_of_mem_digits h
  | text s => exact isPrintable_of_mem_quote h
  | numbers ns =>
    rw [Cell.write, List.cons_append, List.mem_cons, List.mem_append, List.mem_singleton] at h
    rcases h with rfl | h | rfl
    · decide
    · rcases mem_commaSeparated h with rfl | ⟨piece, hpiece, h⟩
      · decide
      · obtain ⟨n, -, rfl⟩ := List.mem_map.1 hpiece
        exact isPrintable_of_mem_digits h
    · decide

theorem isPrintable_of_mem_member {m : Member} {x : Char} (h : x ∈ writeMember m) :
    IsPrintable x := by
  rw [writeMember, List.mem_append, List.mem_cons] at h
  rcases h with h | rfl | h
  · exact isPrintable_of_mem_quote h
  · decide
  · exact isPrintable_of_mem_cell h

/-- No text that is written can bring a control character into a line. -/
theorem isPrintable_of_mem_write {members : List Member} {x : Char}
    (h : x ∈ (write members).toList) : IsPrintable x := by
  rw [write, String.toList_ofList, writeChars, List.cons_append, List.mem_cons, List.mem_append,
    List.mem_singleton] at h
  rcases h with rfl | h | rfl
  · decide
  · rcases mem_commaSeparated h with rfl | ⟨piece, hpiece, h⟩
    · decide
    · obtain ⟨m, -, rfl⟩ := List.mem_map.1 hpiece
      exact isPrintable_of_mem_member h
  · decide

end StreamingAcn.Text.JsonLine
