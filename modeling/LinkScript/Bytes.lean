/-!
# Byte strings and the texts they are

A script is a list of bytes, and a place in it is a byte offset.  `Span` is a half-open range
of offsets, and `Bytes.slice` cuts a range out of a byte string, with negative bounds counted
from the end and both bounds pulled into the string.  For offsets that lie inside the string
this is the plain cut, `Span.slice`.

A byte string is shown in two ways: as the text that it is in UTF-8, and as a text in which every
byte that cannot be printed is escaped.
-/

namespace LinkScript

/-- The raw contents of a file. -/
abbrev Bytes := List UInt8

/-- The half-open range of byte offsets from `start` up to `stop`. -/
structure Span where
  start : Nat
  stop : Nat
  deriving Repr, DecidableEq

/-- The bytes of a span. -/
def Span.slice (span : Span) (bytes : Bytes) : Bytes :=
  (bytes.drop span.start).take (span.stop - span.start)

namespace Bytes

/-- A bound as an offset into a string of `length` bytes: a negative bound counts from the end,
and a bound outside the string is moved to the nearer end. -/
def clampBound (length : Nat) (bound : Int) : Nat :=
  if bound < 0 then (length + bound).toNat else min bound.toNat length

/-- The bytes between two bounds, none when the second does not lie after the first. -/
def slice (bytes : Bytes) (start stop : Int) : Bytes :=
  Span.slice ⟨clampBound bytes.length start, clampBound bytes.length stop⟩ bytes

/-- Whether `lead` stands at the start of the bytes. -/
def startsWith (bytes lead : Bytes) : Bool :=
  lead.isPrefixOf bytes

end Bytes

end LinkScript

/-! ## UTF-8, read leniently

Script text reaches the reader as bytes that need not be valid UTF-8.  The decoder never fails.  It
is a machine that takes one byte at a time: `Pending` is a character of which some bytes have been
read, and `step` gives the characters that a byte completes together with the character it leaves
open.

A byte that cannot continue the open character closes it as one U+FFFD and is then read again
as a first byte, so each longest beginning of a character counts as one mistake.

`decode` drops one byte order mark from the front of the bytes and `decodeKeepingMark` keeps it.
`encode` is the strict other direction, which `decodeKeepingMark` undoes. -/

namespace LinkScript.Text.Utf8

/-- What stands in decoded text for bytes that encode no character. -/
def replacement : Char := '\uFFFD'

/-- The byte order mark, U+FEFF, as bytes. -/
def byteOrderMark : Bytes := [0xEF, 0xBB, 0xBF]

/-- A character that has begun: the payload bits read so far, how many further bytes it needs,
and the range in which the next one has to lie. -/
structure Pending where
  bits : Nat
  missing : Nat
  low : UInt8
  high : UInt8
  deriving Repr, DecidableEq

/-- What a byte means where a character may begin: the characters it completes, and the
character it opens. -/
def first (byte : UInt8) : List Char × Option Pending :=
  if byte ≤ 0x7F then ([Char.ofNat byte.toNat], none)
  else if 0xC2 ≤ byte ∧ byte ≤ 0xDF then ([], some ⟨byte.toNat - 0xC0, 1, 0x80, 0xBF⟩)
  else if byte = 0xE0 then ([], some ⟨0, 2, 0xA0, 0xBF⟩)
  else if byte = 0xED then ([], some ⟨0xD, 2, 0x80, 0x9F⟩)
  else if 0xE1 ≤ byte ∧ byte ≤ 0xEF then ([], some ⟨byte.toNat - 0xE0, 2, 0x80, 0xBF⟩)
  else if byte = 0xF0 then ([], some ⟨0, 3, 0x90, 0xBF⟩)
  else if 0xF1 ≤ byte ∧ byte ≤ 0xF3 then ([], some ⟨byte.toNat - 0xF0, 3, 0x80, 0xBF⟩)
  else if byte = 0xF4 then ([], some ⟨4, 3, 0x80, 0x8F⟩)
  else ([replacement], none)

/-- The effect of one byte on the machine. -/
def step : Option Pending → UInt8 → List Char × Option Pending
  | none, byte => first byte
  | some begun, byte =>
    if begun.low ≤ byte ∧ byte ≤ begun.high then
      let bits := begun.bits * 64 + (byte.toNat - 0x80)
      if begun.missing ≤ 1 then ([Char.ofNat bits], none)
      else ([], some ⟨bits, begun.missing - 1, 0x80, 0xBF⟩)
    else
      let (chars, next) := first byte
      (replacement :: chars, next)

/-- The characters of a byte string read from a given state; a character left open at the end
counts as one mistake. -/
def run : Option Pending → Bytes → List Char
  | none, [] => []
  | some _, [] => [replacement]
  | state, byte :: rest =>
    let (chars, next) := step state byte
    chars ++ run next rest

/-- The characters of a byte string, a leading byte order mark among them. -/
def decodeKeepingMark (bytes : Bytes) : String :=
  String.ofList (run none bytes)

/-- The characters of a byte string without one leading byte order mark. -/
def decode (bytes : Bytes) : String :=
  decodeKeepingMark (if bytes.startsWith byteOrderMark then bytes.drop 3 else bytes)

/-- The bytes of a text. -/
def encode (text : String) : Bytes :=
  text.toList.flatMap String.utf8EncodeChar

end LinkScript.Text.Utf8

/-! ## Bytes made printable

`escape` shows a byte string on one line of printable ASCII: the bytes from space to tilde stand
for themselves, and every other byte is written as a backslash, an `x` and two lower-case
hexadecimal digits.  `unescape` reads such a line back.  A backslash of the bytes themselves is
not marked, so the two undo each other only on byte strings without one. -/

namespace LinkScript.Text.HexEscape

/-- The lower-case hexadecimal digit for a number below sixteen. -/
def digit (n : Nat) : Char :=
  Char.ofNat (if n < 10 then '0'.toNat + n else 'a'.toNat + (n - 10))

/-- The number that a lower-case hexadecimal digit stands for. -/
def digitValue? (c : Char) : Option Nat :=
  if '0' ≤ c ∧ c ≤ '9' then some (c.toNat - '0'.toNat)
  else if 'a' ≤ c ∧ c ≤ 'f' then some (c.toNat - 'a'.toNat + 10)
  else none

/-- A byte in two digits. -/
def byteDigits (byte : UInt8) : List Char :=
  [digit (byte.toNat / 16), digit (byte.toNat % 16)]

/-- Whether a byte is shown as itself. -/
def isPlain (byte : UInt8) : Bool :=
  0x20 ≤ byte && byte ≤ 0x7E

/-- The characters that show one byte. -/
def escapeByte (byte : UInt8) : List Char :=
  if isPlain byte then [Char.ofNat byte.toNat] else '\\' :: 'x' :: byteDigits byte

/-- The characters that show a byte string. -/
def escapeChars (bytes : Bytes) : List Char :=
  bytes.flatMap escapeByte

/-- A byte string shown in printable ASCII. -/
def escape (bytes : Bytes) : String :=
  String.ofList (escapeChars bytes)

/-- Every group of a backslash, an `x` and two digits read as one byte, and every other character
as the byte of its code. -/
def unescape : List Char → Bytes
  | '\\' :: 'x' :: high :: low :: rest =>
    match digitValue? high, digitValue? low with
    | some h, some l => (16 * h + l).toUInt8 :: unescape rest
    | _, _ => (0x5C : UInt8) :: unescape ('x' :: high :: low :: rest)
  | c :: rest => c.toNat.toUInt8 :: unescape rest
  | [] => []

/-- A byte string in hexadecimal digits alone, two to a byte. -/
def hex (bytes : Bytes) : String :=
  String.ofList (bytes.flatMap byteDigits)

/-- The bytes that pairs of hexadecimal digits stand for. -/
def ofHexChars? : List Char → Option Bytes
  | [] => some []
  | high :: low :: rest => do
    let h ← digitValue? high
    let l ← digitValue? low
    let bytes ← ofHexChars? rest
    return (16 * h + l).toUInt8 :: bytes
  | [_] => none

end LinkScript.Text.HexEscape
