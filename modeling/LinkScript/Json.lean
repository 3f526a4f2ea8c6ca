import LinkScript.Bytes
import LinkScript.Decimal
import LinkScript.Fields

/-!
# JSON

The values of JSON, with the members of an object in the order in which they are written, and one
printer of them with two layouts: `compact` puts everything on one line without a space, and
`indented` gives each item and each member a line of its own, two spaces further in than the
bracket around it.  Empty arrays and objects are a pair of brackets in both.

In a text only the quotation mark, the backslash and the controls below U+0020 are escaped.
-/

namespace LinkScript

/-- A JSON value. -/
inductive Json where
  | null
  | bool (value : Bool)
  | num (value : Decimal)
  | str (text : String)
  | arr (items : List Json)
  | obj (members : List (String × Json))
  deriving Inhabited, Repr

namespace Json

/-- A natural number as JSON. -/
def nat (n : Nat) : Json := num (Decimal.ofNat n)

/-- An integer as JSON. -/
def int (n : Int) : Json := num (Decimal.ofInt n)

/-- A text as JSON, or `null`. -/
def strOrNull : Option String → Json
  | some text => str text
  | none => null

/-- The member of an object with a given name. -/
def get? (json : Json) (name : String) : Option Json :=
  match json with
  | obj members => members.lookup name
  | _ => none

end Json

end LinkScript

/-! ## Writing -/

namespace LinkScript.Json

/-- How the parts of a value are set apart. -/
structure Layout where
  /-- What separates the lines of a container, at a given depth. -/
  lineBreak : Nat → List Char
  /-- What stands between a name and its value. -/
  colon : List Char

/-- Everything on one line. -/
def Layout.compact : Layout := ⟨fun _ => [], [':']⟩

/-- A line for every item, two spaces deeper than what contains it. -/
def Layout.indented : Layout :=
  ⟨fun depth => '\n' :: List.replicate (2 * depth) ' ', [':', ' ']⟩

/-- The characters that stand for one character inside a text. -/
def escapeChar (c : Char) : List Char :=
  if c = '"' then ['\\', '"']
  else if c = '\\' then ['\\', '\\']
  else if 0x20 ≤ c.toNat then [c]
  else if c = '\x08' then ['\\', 'b']
  else if c = '\t' then ['\\', 't']
  else if c = '\n' then ['\\', 'n']
  else if c = '\x0c' then ['\\', 'f']
  else if c = '\r' then ['\\', 'r']
  else
    '\\' :: 'u' :: '0' :: '0' ::
      [Text.HexEscape.digit (c.toNat / 16), Text.HexEscape.digit (c.toNat % 16)]

/-- A text in quotation marks. -/
def quoteChars (text : String) : List Char :=
  '"' :: text.toList.flatMap escapeChar ++ ['"']

mutual

/-- The characters of a value at a given depth. -/
def renderChars (layout : Layout) (depth : Nat) : Json → List Char
  | .null => ['n', 'u', 'l', 'l']
  | .bool true => ['t', 'r', 'u', 'e']
  | .bool false => ['f', 'a', 'l', 's', 'e']
  | .num value => value.chars
  | .str text => quoteChars text
  | .arr [] => ['[', ']']
  | .arr (first :: rest) =>
    '[' :: layout.lineBreak (depth + 1) ++ renderChars layout (depth + 1) first
      ++ renderItems layout (depth + 1) rest ++ layout.lineBreak depth ++ [']']
  | .obj [] => ['\x7b', '\x7d']
  | .obj ((name, value) :: rest) =>
    '\x7b' :: layout.lineBreak (depth + 1) ++ quoteChars name ++ layout.colon
      ++ renderChars layout (depth + 1) value ++ renderMembers layout (depth + 1) rest
      ++ layout.lineBreak depth ++ ['\x7d']

/-- The items behind the first one of an array. -/
def renderItems (layout : Layout) (depth : Nat) : List Json → List Char
  | [] => []
  | first :: rest =>
    ',' :: layout.lineBreak depth ++ renderChars layout depth first
      ++ renderItems layout depth rest

/-- The members behind the first one of an object. -/
def renderMembers (layout : Layout) (depth : Nat) : List (String × Json) → List Char
  | [] => []
  | (name, value) :: rest =>
    ',' :: layout.lineBreak depth ++ quoteChars name ++ layout.colon
      ++ renderChars layout depth value ++ renderMembers layout depth rest

end

/-- A value on one line. -/
def compress (json : Json) : String := String.ofList (renderChars .compact 0 json)

/-- A value spread over lines. -/
def pretty (json : Json) : String := String.ofList (renderChars .indented 0 json)

end LinkScript.Json
