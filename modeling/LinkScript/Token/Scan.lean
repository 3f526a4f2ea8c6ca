import LinkScript.Failure

/-!
# Scanning

A source is a sequence of tokens with blanks, spaces and tabs, between them.  `next` cuts the
first token off a byte string, and `scan` repeats it up to the `eof` token that ends every scan,
going on past invalid tokens.

The three tokens of variable length are these.

* A comment runs from its opening mark through the first closing mark after it, or through the
  rest of the source where there is none.
* A literal runs up to a space, a parenthesis or a line break.  It is a keyword when its decoded
  text spells one.
* A carriage return that no line feed follows ends no literal and begins no line: it makes the
  run that it closes an invalid token.

Lines and columns come from the newline tokens alone, so a line feed inside a comment does not
count.  `tokenize` is the scan of a source without invalid tokens.
-/

namespace LinkScript

/-! ## Classes of bytes -/

namespace Byte

/-- The tabulator. -/
def tab : UInt8 := 0x09

/-- The line feed. -/
def lineFeed : UInt8 := 0x0A

/-- The carriage return. -/
def carriageReturn : UInt8 := 0x0D

/-- The space. -/
def space : UInt8 := 0x20

/-- The opening parenthesis. -/
def leftParen : UInt8 := 0x28

/-- The closing parenthesis. -/
def rightParen : UInt8 := 0x29

/-- The asterisk. -/
def star : UInt8 := 0x2A

/-- The slash. -/
def slash : UInt8 := 0x2F

/-- The opening brace. -/
def leftBrace : UInt8 := 0x7B

/-- The closing brace. -/
def rightBrace : UInt8 := 0x7D

/-- The bytes skipped between tokens. -/
def isBlank (byte : UInt8) : Bool := byte == space || byte == tab

/-- The bytes that end a literal.  A carriage return is one of them, although it makes the
literal invalid unless a line feed follows. -/
def endsLiteral (byte : UInt8) : Bool :=
  byte == space || byte == leftParen || byte == rightParen || byte == lineFeed ||
    byte == carriageReturn

end Byte

/-! ## One token -/

/-- The first token of a byte string: the blanks before it, what it is, its bytes, and the bytes
after it. -/
structure Cut where
  gap : Bytes
  kind : TokenKind
  bytes : Bytes
  rest : Bytes
  deriving Repr, DecidableEq

namespace Token

/-- The inside of a comment with its closing mark, and the bytes after it. -/
def cutComment : Bytes → Bytes × Bytes
  | first :: second :: rest =>
    if first = Byte.star ∧ second = Byte.slash then ([first, second], rest)
    else
      let (inside, after) := cutComment (second :: rest)
      (first :: inside, after)
  | short => (short, [])

/-- What a literal with these bytes is: a keyword or a plain literal. -/
def literalKind (bytes : Bytes) : TokenKind :=
  match Command.ofName? (Text.Utf8.decode bytes) with
  | some keyword => .command keyword
  | none => .literal

/-- The kinds of token that are a single byte whatever follows. -/
def singleByte? (byte : UInt8) : Option TokenKind :=
  if byte = Byte.lineFeed then some .newline
  else if byte = Byte.leftParen then some .lparen
  else if byte = Byte.rightParen then some .rparen
  else if byte = Byte.leftBrace then some .lbrace
  else if byte = Byte.rightBrace then some .rbrace
  else none

/-- The literal, keyword or invalid token at the front of a byte string. -/
def cutLiteral (input : Bytes) : TokenKind × Bytes × Bytes :=
  let run := input.takeWhile (!Byte.endsLiteral ·)
  let after := input.dropWhile (!Byte.endsLiteral ·)
  if after.head? = some Byte.carriageReturn ∧ after.tail.head? ≠ some Byte.lineFeed then
    (.invalid, run ++ [Byte.carriageReturn], after.tail)
  else (literalKind run, run, after)

/-- The token that begins with the first byte of a string without leading blanks, and the bytes
after it. -/
def cutToken : Bytes → TokenKind × Bytes × Bytes
  | [] => (.eof, [], [])
  | first :: rest =>
    match singleByte? first with
    | some kind => (kind, [first], rest)
    | none =>
      if first = Byte.carriageReturn ∧ rest.head? = some Byte.lineFeed then
        (.newline, [first, Byte.lineFeed], rest.tail)
      else if first = Byte.slash ∧ rest.head? = some Byte.star then
        let (inside, after) := cutComment rest.tail
        (.comment, first :: Byte.star :: inside, after)
      else cutLiteral (first :: rest)

/-- The first token of a byte string. -/
def next (input : Bytes) : Cut :=
  let (kind, bytes, rest) := cutToken (input.dropWhile Byte.isBlank)
  ⟨input.takeWhile Byte.isBlank, kind, bytes, rest⟩

/-! ## A step gets on

The parts of a cut are the bytes it was cut from, and every token but `eof` takes at least one
of them, which is what lets the scan end. -/

/-- A comment and what is behind it are the bytes it was cut from. -/
theorem cutComment_append (input : Bytes) :
    (cutComment input).1 ++ (cutComment input).2 = input := by
  fun_induction cutComment input with
  | case1 => rfl
  | case2 first second rest _ inside after heq ih => simpa [heq] using ih
  | case3 => simp

/-- A literal and what is behind it are the bytes it was cut from. -/
theorem cutLiteral_append (input : Bytes) :
    (cutLiteral input).2.1 ++ (cutLiteral input).2.2 = input := by
  have whole := List.takeWhile_append_dropWhile (p := (!Byte.endsLiteral ·)) (l := input)
  unfold cutLiteral
  dsimp only
  split
  · next h =>
    cases after : input.dropWhile (!Byte.endsLiteral ·) with
    | nil => simp [after] at h
    | cons stop beyond =>
      rw [after] at h whole
      simp only [List.head?_cons, Option.some.injEq] at h
      simpa [h.1] using whole
  · exact whole

/-- A token and the bytes after it are the bytes it was cut from. -/
theorem cutToken_append (input : Bytes) :
    (cutToken input).2.1 ++ (cutToken input).2.2 = input := by
  unfold cutToken
  split
  · rfl
  · next first rest =>
    split
    · rfl
    · split
      · next h => cases rest <;> simp_all
      · split
        · next h =>
          cases rest with
          | nil => simp at h
          | cons second rest => simpa [cutComment_append] using h.2.symm
        · exact cutLiteral_append _

/-- A gap, the token behind it and the rest are the bytes they were cut from. -/
theorem next_append (input : Bytes) :
    (next input).gap ++ (next input).bytes ++ (next input).rest = input := by
  simp [next, List.append_assoc, cutToken_append, List.takeWhile_append_dropWhile]

/-- What begins no other token begins a literal or an invalid token of at least one byte. -/
theorem cutLiteral_bytes_ne_nil {first : UInt8} {rest : Bytes}
    (h : singleByte? first = none) (blank : Byte.isBlank first = false)
    (newline : ¬ (first = Byte.carriageReturn ∧ rest.head? = some Byte.lineFeed)) :
    (cutLiteral (first :: rest)).2.1 ≠ [] := by
  by_cases ends : Byte.endsLiteral first
  · have cr : first = Byte.carriageReturn := by
      simp only [singleByte?] at h
      simp only [Byte.isBlank, Bool.or_eq_false_iff, beq_eq_false_iff_ne] at blank
      simp only [Byte.endsLiteral, Bool.or_eq_true, beq_iff_eq] at ends
      grind
    subst cr
    have : rest.head? ≠ some Byte.lineFeed := fun h => newline ⟨rfl, h⟩
    simp [cutLiteral, ends, this]
  · unfold cutLiteral
    dsimp only
    split <;> simp [ends]

/-- A token that does not begin with a blank has a byte. -/
theorem cutToken_bytes_ne_nil {first : UInt8} {rest : Bytes}
    (blank : Byte.isBlank first = false) : (cutToken (first :: rest)).2.1 ≠ [] := by
  simp only [cutToken]
  split
  · simp
  · next single =>
    split
    · simp
    · next newline =>
      split
      · simp
      · exact cutLiteral_bytes_ne_nil single blank newline

/-- Every token but `eof` has bytes. -/
theorem next_bytes_ne_nil {input : Bytes} (h : (next input).kind ≠ .eof) :
    (next input).bytes ≠ [] := by
  simp only [next] at h ⊢
  cases hd : input.dropWhile Byte.isBlank with
  | nil => simp [hd, cutToken] at h
  | cons first rest =>
    have blank := List.head?_dropWhile_not Byte.isBlank input
    rw [hd] at blank
    exact cutToken_bytes_ne_nil (by simpa using blank)

/-- Cutting off a token other than `eof` leaves a shorter string. -/
theorem next_rest_length_lt {input : Bytes} (h : (next input).kind ≠ .eof) :
    (next input).rest.length < input.length := by
  have whole := congrArg List.length (next_append input)
  have taken := List.length_pos_iff.mpr (next_bytes_ne_nil h)
  simp only [List.length_append] at whole
  omega

end Token

/-! ## The whole source -/

/-- How far a scan has come: the offset it stands at, the line it is in, and the offset at which
that line begins. -/
structure Mark where
  offset : Nat
  line : Nat
  lineStart : Nat
  deriving Repr, DecidableEq

namespace Mark

/-- The beginning of a source. -/
def origin : Mark := ⟨0, 0, 0⟩

/-- The line and column of the place `gap` bytes further on. -/
def position (mark : Mark) (gap : Nat) : Position :=
  ⟨mark.line, (mark.offset + gap : Nat) - (mark.lineStart : Int)⟩

/-- The mark behind a token that ends at `stop`: a newline begins a line there. -/
def past (mark : Mark) (kind : TokenKind) (stop : Nat) : Mark :=
  if kind = .newline then ⟨stop, mark.line + 1, stop⟩ else { mark with offset := stop }

end Mark

/-- The lexeme that a cut at a mark gives. -/
def Cut.lexeme (cut : Cut) (mark : Mark) : Lexeme where
  kind := cut.kind
  span := ⟨mark.offset + cut.gap.length, mark.offset + cut.gap.length + cut.bytes.length⟩
  bytes := cut.bytes
  position := mark.position cut.gap.length

/-- The lexemes of the bytes that follow a mark, through `eof`. -/
def scanFrom (mark : Mark) (input : Bytes) : List Lexeme :=
  let cut := Token.next input
  let lexeme := cut.lexeme mark
  if _h : cut.kind = .eof then [lexeme]
  else lexeme :: scanFrom (mark.past lexeme.kind lexeme.span.stop) cut.rest
termination_by input.length
decreasing_by exact Token.next_rest_length_lt _h

/-- The lexemes of a source, invalid ones among them, through `eof`. -/
def scan (source : Bytes) : List Lexeme := scanFrom Mark.origin source

/-! ## Sources without invalid tokens -/

/-- The failure that an invalid token stands for. -/
def Lexeme.invalidToken (lexeme : Lexeme) : LinkFailure :=
  ⟨.invalidToken lexeme.bytes, lexeme.position⟩

/-- The lexemes of a source through `eof`, unless one of them is invalid. -/
def tokenize (source : Bytes) : Except LinkFailure (List Lexeme) :=
  let lexemes := scan source
  match lexemes.find? (·.kind == .invalid) with
  | some lexeme => .error lexeme.invalidToken
  | none => .ok lexemes

end LinkScript
