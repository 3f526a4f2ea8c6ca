import LinkScript.Json

/-!
# Reading JSON

The reader of JSON documents.  It accepts the grammar of the format: any of the four blank
characters between the parts, every escape, and numbers with fractions and powers of ten.
Members come out in the order in which they stand, repeated names among them.

The functions over values take a bound on the number of nested and neighbouring values; `read`
supplies the length of the document, which is always enough.
-/

namespace LinkScript.Json

/-! ## Texts -/

/-- The characters that may stand between the parts of a document. -/
def isSpace (c : Char) : Bool := c == ' ' || c == '\t' || c == '\n' || c == '\r'

/-- The value of a hexadecimal digit in either case. -/
def hexValue? (c : Char) : Option Nat :=
  if '0' ≤ c ∧ c ≤ '9' then some (c.toNat - '0'.toNat)
  else if 'a' ≤ c ∧ c ≤ 'f' then some (c.toNat - 'a'.toNat + 10)
  else if 'A' ≤ c ∧ c ≤ 'F' then some (c.toNat - 'A'.toNat + 10)
  else none

/-- The number that four hexadecimal digits stand for. -/
def hexUnit? (a b c d : Char) : Option Nat := do
  let a ← hexValue? a
  let b ← hexValue? b
  let c ← hexValue? c
  let d ← hexValue? d
  return ((a * 16 + b) * 16 + c) * 16 + d

/-- The character of an escape with one letter. -/
def simpleEscape? (c : Char) : Option Char :=
  if c = '"' ∨ c = '\\' ∨ c = '/' then some c
  else if c = 'b' then some '\x08'
  else if c = 't' then some '\t'
  else if c = 'n' then some '\n'
  else if c = 'f' then some '\x0c'
  else if c = 'r' then some '\r'
  else none

/-- The inside of a text as numbers, through its closing quotation mark, and what follows.  An
escaped number may be one half of a character past U+FFFF. -/
def readUnits : List Char → Option (List Nat × List Char)
  | [] => none
  | '"' :: rest => some ([], rest)
  | '\\' :: 'u' :: a :: b :: c :: d :: rest => do
    let unit ← hexUnit? a b c d
    let (units, rest) ← readUnits rest
    return (unit :: units, rest)
  | '\\' :: c :: rest => do
    let char ← simpleEscape? c
    let (units, rest) ← readUnits rest
    return (char.toNat :: units, rest)
  | c :: rest =>
    if c.toNat < 0x20 then none
    else do
      let (units, rest) ← readUnits rest
      return (c.toNat :: units, rest)

/-- The character of a number that stands alone; a half of a character is lost to U+FFFD. -/
def loneChar (unit : Nat) : Char :=
  if 0xD800 ≤ unit ∧ unit < 0xE000 then '\uFFFD' else Char.ofNat unit

/-- Numbers as characters, a first half and a second half joined to one. -/
def joinUnits : List Nat → List Char
  | [] => []
  | [unit] => [loneChar unit]
  | first :: second :: rest =>
    if (0xD800 ≤ first ∧ first < 0xDC00) ∧ (0xDC00 ≤ second ∧ second < 0xE000) then
      Char.ofNat (0x10000 + (first - 0xD800) * 0x400 + (second - 0xDC00)) :: joinUnits rest
    else loneChar first :: joinUnits (second :: rest)

/-- A text behind its opening quotation mark, and what follows. -/
def readText (input : List Char) : Option (String × List Char) := do
  let (units, rest) ← readUnits input
  return (String.ofList (joinUnits units), rest)

/-! ## Numbers -/

/-- A run of digits, and what follows. -/
def readDigits (input : List Char) : List Char × List Char :=
  (input.takeWhile Char.isDigit, input.dropWhile Char.isDigit)

/-- The digits of a fraction, if one follows. -/
def readFraction : List Char → Option (List Char × List Char)
  | '.' :: rest =>
    match readDigits rest with
    | ([], _) => none
    | found => some found
  | rest => some ([], rest)

/-- The sign of a power of ten, and what follows. -/
def readSign : List Char → Bool × List Char
  | '+' :: rest => (false, rest)
  | '-' :: rest => (true, rest)
  | rest => (false, rest)

/-- A power of ten, if one follows. -/
def readExponent : List Char → Option (Int × List Char)
  | c :: rest =>
    if c = 'e' ∨ c = 'E' then
      let (negative, rest) := readSign rest
      match readDigits rest with
      | ([], _) => none
      | (digits, rest) =>
        let size : Int := Nat.ofDigitChars 10 digits 0
        some (if negative then -size else size, rest)
    else some (0, c :: rest)
  | [] => some (0, [])

/-- A number without its sign, and what follows. -/
def readMagnitude (negative : Bool) (input : List Char) : Option (Decimal × List Char) :=
  match readDigits input with
  | ([], _) => none
  | (whole, rest) =>
    if whole.head? = some '0' ∧ whole.length ≠ 1 then none
    else do
      let (fraction, rest) ← readFraction rest
      let (exponent, rest) ← readExponent rest
      let digits := Nat.ofDigitChars 10 (whole ++ fraction) 0
      return (Decimal.of negative digits (exponent - fraction.length), rest)

/-- A number, and what follows. -/
def readNumber : List Char → Option (Decimal × List Char)
  | '-' :: rest => readMagnitude true rest
  | rest => readMagnitude false rest

/-! ## Values -/

/-- What follows the blanks. -/
def skipSpace (input : List Char) : List Char := input.dropWhile isSpace

/-- A name with the colon behind it, from its opening quotation mark on. -/
def readName : List Char → Option (String × List Char)
  | '"' :: rest => do
    let (name, rest) ← readText rest
    match skipSpace rest with
    | ':' :: rest => return (name, rest)
    | _ => none
  | _ => none

mutual

/-- A value with the blanks before it, and what follows. -/
def readValue : Nat → List Char → Option (Json × List Char)
  | 0, _ => none
  | bound + 1, input =>
    match skipSpace input with
    | 'n' :: 'u' :: 'l' :: 'l' :: rest => some (.null, rest)
    | 't' :: 'r' :: 'u' :: 'e' :: rest => some (.bool true, rest)
    | 'f' :: 'a' :: 'l' :: 's' :: 'e' :: rest => some (.bool false, rest)
    | '"' :: rest => (readText rest).map fun (text, rest) => (.str text, rest)
    | '[' :: rest =>
      match skipSpace rest with
      | ']' :: rest => some (.arr [], rest)
      | _ => do
        let (first, rest) ← readValue bound rest
        let (others, rest) ← readItems bound rest
        return (.arr (first :: others), rest)
    | '\x7b' :: rest =>
      match skipSpace rest with
      | '\x7d' :: rest => some (.obj [], rest)
      | inside => do
        let (name, rest) ← readName inside
        let (value, rest) ← readValue bound rest
        let (others, rest) ← readMembers bound rest
        return (.obj ((name, value) :: others), rest)
    | inside => (readNumber inside).map fun (value, rest) => (.num value, rest)

/-- The items behind the first one of an array, through the closing bracket. -/
def readItems : Nat → List Char → Option (List Json × List Char)
  | 0, _ => none
  | bound + 1, input =>
    match skipSpace input with
    | ']' :: rest => some ([], rest)
    | ',' :: rest => do
      let (first, rest) ← readValue bound rest
      let (others, rest) ← readItems bound rest
      return (first :: others, rest)
    | _ => none

/-- The members behind the first one of an object, through the closing brace. -/
def readMembers : Nat → List Char → Option (List (String × Json) × List Char)
  | 0, _ => none
  | bound + 1, input =>
    match skipSpace input with
    | '\x7d' :: rest => some ([], rest)
    | ',' :: rest => do
      let (name, rest) ← readName (skipSpace rest)
      let (value, rest) ← readValue bound rest
      let (others, rest) ← readMembers bound rest
      return ((name, value) :: others, rest)
    | _ => none

end

/-- The value that a whole document is. -/
def readChars (input : List Char) : Option Json :=
  match readValue (input.length + 1) input with
  | some (value, rest) => if (skipSpace rest).isEmpty then some value else none
  | none => none

/-- The value that a whole document is. -/
def read (document : String) : Option Json := readChars document.toList

end LinkScript.Json
