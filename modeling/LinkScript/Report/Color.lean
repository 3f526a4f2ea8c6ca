/-!
# Colour

Text on a terminal is coloured by codes around it.  `paint` puts them there, keeping two rules:
a code that ends the colour inside the text is followed by one that begins it again, and the
colour is ended before each line break and begun again behind it.  At level zero nothing is
coloured, and empty text never is.

`strip` takes colour codes away again.
-/

namespace LinkScript.Report

/-- The colours in use. -/
inductive Color where
  | red
  | green
  | yellow
  | cyan
  | gray
  deriving Repr, DecidableEq

namespace Color

/-- The character that begins a code. -/
def escape : Char := '\x1b'

/-- The digits of the code that begins a colour. -/
def digits : Color → List Char
  | red => ['3', '1']
  | green => ['3', '2']
  | yellow => ['3', '3']
  | cyan => ['3', '6']
  | gray => ['9', '0']

/-- A code from its digits. -/
def code (digits : List Char) : List Char := escape :: '[' :: digits ++ ['m']

/-- The code that begins a colour. -/
def begin (color : Color) : List Char := code color.digits

/-- The code that ends any colour. -/
def finish : List Char := code ['3', '9']

/-- The text with the colour begun again behind every code that ends one. -/
def reopen (color : Color) : List Char → List Char
  | '\x1b' :: '[' :: '3' :: '9' :: 'm' :: rest => finish ++ color.begin ++ reopen color rest
  | c :: rest => c :: reopen color rest
  | [] => []

/-- The text with the colour ended before every line break and begun again behind it. -/
def breakLines (color : Color) : List Char → List Char
  | '\r' :: '\n' :: rest => finish ++ '\r' :: '\n' :: color.begin ++ breakLines color rest
  | c :: rest =>
    if c = '\n' then finish ++ '\n' :: color.begin ++ breakLines color rest
    else c :: breakLines color rest
  | [] => []

/-- The text in a colour. -/
def wrap (color : Color) (text : List Char) : List Char :=
  color.begin ++ breakLines color (reopen color text) ++ finish

/-- The text in a colour, at a level of colouring. -/
def paint (color : Color) (level : Nat) (text : String) : String :=
  if level = 0 ∨ text = "" then text else String.ofList (color.wrap text.toList)

/-- What stands behind the digits and the `m` of a code. -/
def behindDigits? : List Char → Option (List Char)
  | [] => none
  | c :: rest => if c = 'm' then some rest else if c.isDigit then behindDigits? rest else none

/-- What stands behind the code that a text begins with. -/
def behindCode? : List Char → Option (List Char)
  | '\x1b' :: '[' :: rest => behindDigits? rest
  | _ => none

/-- What stands behind digits and an `m` is shorter than the text. -/
theorem behindDigits?_length_lt {text rest : List Char} (h : behindDigits? text = some rest) :
    rest.length < text.length := by
  induction text with
  | nil => cases h
  | cons c text ih =>
    simp only [behindDigits?] at h
    split at h
    · simp_all
    · split at h
      · exact Nat.lt_succ_of_lt (ih h)
      · cases h

/-- What stands behind a code is shorter than the text. -/
theorem behindCode?_length_lt {text rest : List Char} (h : behindCode? text = some rest) :
    rest.length < text.length := by
  unfold behindCode? at h
  split at h
  · exact Nat.lt_succ_of_lt (Nat.lt_succ_of_lt (behindDigits?_length_lt h))
  · cases h

/-- The text without colour codes. -/
def strip (text : List Char) : List Char :=
  match _h : behindCode? text with
  | some behind => strip behind
  | none =>
    match text with
    | [] => []
    | c :: rest => c :: strip rest
termination_by text.length
decreasing_by
  · exact behindCode?_length_lt _h
  · simp

end Color

end LinkScript.Report
