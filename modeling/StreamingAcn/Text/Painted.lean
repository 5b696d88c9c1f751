/-
StreamingAcn.Text.Painted — text in terminal styles.

A style is opened by a control sequence and closed by a reset. Where the text holds a reset of its
own, the style is opened again behind it, so the whole text is shown in the style.
-/

namespace StreamingAcn.Text

inductive Style
  | dimmed
  | boldCyan
  | yellow
  | red
  deriving DecidableEq

namespace Style

/-- The numbers that select a style. -/
def code : Style → String
  | .dimmed => "2"
  | .boldCyan => "1;36"
  | .yellow => "33"
  | .red => "31"

def opening (s : Style) : List Char := '\x1b' :: '[' :: s.code.toList ++ ['m']

/-- The control sequence that closes every style. -/
def reset : List Char := ['\x1b', '[', '0', 'm']

/-- A text in which the style is opened again behind every reset. -/
def reopen (s : Style) : List Char → List Char
  | [] => []
  | '\x1b' :: '[' :: '0' :: 'm' :: rest => reset ++ s.opening ++ s.reopen rest
  | c :: rest => c :: s.reopen rest

/-- A text in a style, or as it is where styles are off. -/
def paint (s : Style) (isOn : Bool) (text : String) : String :=
  if isOn then String.ofList (s.opening ++ s.reopen text.toList ++ reset) else text

end Style

end StreamingAcn.Text
