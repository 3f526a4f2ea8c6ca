import LinkScript.Proofs.Text.Ascii
import LinkScript.Proofs.Token.Coverage
import LinkScript.Proofs.Token.Word
import Mathlib.Data.List.Infix

/-!
# What tokens look like

The scanner cuts tokens off by reading byte after byte.  Here each kind of token is described
without it, by the bytes of the token and the bytes behind it, and a source is cut into tokens that
fit their descriptions.

* `Shape kind bytes rest` is the description of a kind.  `IsComment` and `IsLiteral` are its cases
  of free length, `LiteralRun` is a run of bytes as in a literal, and `Spells` tells a keyword.
* `Token.next_of_shape`: what looks like a token behind blanks is cut off as that token.  So no
  bytes look like tokens of two kinds (`Shape.kind_unique`).
* `Token.shape_next`: what is cut off looks like its kind.
* `Tokenized` is a cut of a source into blanks and tokens of the right shape, with an `eof` at the
  end.  The tokens of a scan are one (`tokenized_scanFrom`), and there is no other
  (`Tokenized.eq_scanFrom`).
* `scan_refines_shapes` puts this together for a whole source.
-/

namespace LinkScript

open Text.Utf8

/-! ## Descriptions -/

/-- The two bytes that open a comment. -/
def commentOpen : Bytes := [Byte.slash, Byte.star]

/-- The two bytes that close a comment. -/
def commentClose : Bytes := [Byte.star, Byte.slash]

/-- A comment: behind its opening mark it ends with a closing mark and holds no other before that
one, or it holds none and is the rest of the source. -/
def IsComment (bytes rest : Bytes) : Prop :=
  commentOpen <+: bytes ∧
    (commentClose <:+ bytes.drop 2 ∧ ¬ commentClose <:+: (bytes.drop 2).dropLast ∨
      rest = [] ∧ ¬ commentClose <:+: bytes.drop 2)

/-- A run of bytes as in a literal, possibly empty. -/
structure LiteralRun (bytes : Bytes) : Prop where
  /-- It begins with no blank and no token of another kind. -/
  first : ∀ byte ∈ bytes.head?, byte ∉ [Byte.space, Byte.tab, Byte.lineFeed,
    Byte.carriageReturn, Byte.leftParen, Byte.rightParen, Byte.leftBrace, Byte.rightBrace]
  /-- It does not begin with a comment. -/
  no_comment : ¬ commentOpen <+: bytes
  /-- Nothing in it ends a literal. -/
  inside : ∀ byte ∈ bytes, byte ∉ [Byte.space, Byte.leftParen, Byte.rightParen, Byte.lineFeed,
    Byte.carriageReturn]

/-- A literal, keyword or not: a run that is not empty, before something that ends it. -/
structure IsLiteral (bytes rest : Bytes) : Prop where
  ne_nil : bytes ≠ []
  run : LiteralRun bytes
  /-- Nothing follows, or a blank, a parenthesis or a line break does. -/
  behind : rest = [] ∨
    (∃ byte ∈ [Byte.space, Byte.leftParen, Byte.rightParen, Byte.lineFeed],
      rest.head? = some byte) ∨
    [Byte.carriageReturn, Byte.lineFeed] <+: rest

/-- The bytes are the name of a keyword, with at most one byte order mark in front. -/
def Spells (keyword : Command) (bytes : Bytes) : Prop :=
  bytes = encode keyword.name ∨ bytes = byteOrderMark ++ encode keyword.name

/-- What a token of each kind looks like: its bytes, and the bytes behind it. -/
def Shape : TokenKind → Bytes → Bytes → Prop
  | .eof, bytes, rest => bytes = [] ∧ rest = []
  | .invalid, bytes, rest => (∃ run, LiteralRun run ∧ bytes = run ++ [Byte.carriageReturn]) ∧
      rest.head? ≠ some Byte.lineFeed
  | .newline, bytes, _ =>
      bytes = [Byte.lineFeed] ∨ bytes = [Byte.carriageReturn, Byte.lineFeed]
  | .lparen, bytes, _ => bytes = [Byte.leftParen]
  | .rparen, bytes, _ => bytes = [Byte.rightParen]
  | .lbrace, bytes, _ => bytes = [Byte.leftBrace]
  | .rbrace, bytes, _ => bytes = [Byte.rightBrace]
  | .comment, bytes, rest => IsComment bytes rest
  | .command keyword, bytes, rest => IsLiteral bytes rest ∧ Spells keyword bytes
  | .literal, bytes, rest => IsLiteral bytes rest ∧ ∀ keyword, ¬ Spells keyword bytes

/-- A byte string that begins at an offset, cut into blanks and tokens that look like their kinds,
with an `eof` at the end. -/
inductive Tokenized : Nat → Bytes → List Token → Prop where
  | eof {offset : Nat} {gap : Bytes} : (∀ byte ∈ gap, Byte.isBlank byte) →
      Tokenized offset gap [⟨.eof, ⟨offset + gap.length, offset + gap.length⟩⟩]
  | token {offset : Nat} {gap bytes rest : Bytes} {kind : TokenKind} {tokens : List Token} :
      (∀ byte ∈ gap, Byte.isBlank byte) → kind ≠ .eof → Shape kind bytes rest →
      Tokenized (offset + gap.length + bytes.length) rest tokens →
      Tokenized offset (gap ++ bytes ++ rest)
        (⟨kind, ⟨offset + gap.length, offset + gap.length + bytes.length⟩⟩ :: tokens)

/-! ## Keywords -/

/-- A text that names a keyword is its name. -/
theorem Command.ofName?_eq_some_iff {text : String} {keyword : Command} :
    Command.ofName? text = some keyword ↔ text = keyword.name := by
  constructor
  · intro found
    have named := List.find?_some found
    exact (beq_iff_eq.mp named).symm
  · rintro rfl
    cases keyword <;> rfl

/-- No two keywords have one name. -/
theorem Command.name_injective {keyword other : Command} (same : keyword.name = other.name) :
    keyword = other := by
  have found := Command.ofName?_eq_some_iff.mpr same
  have own := Command.ofName?_eq_some_iff.mpr (rfl : keyword.name = keyword.name)
  exact Option.some.inj (own.symm.trans found)

/-- The names of keywords are plain text. -/
theorem Command.isAscii_name (keyword : Command) : ∀ char ∈ keyword.name.toList, IsAscii char := by
  have plain : keyword.name.toList.all fun char => IsAscii char := by cases keyword <;> decide
  intro char mem
  exact of_decide_eq_true (List.all_eq_true.mp plain char mem)

/-- The names of keywords are spelled in one way, apart from a byte order mark. -/
theorem decode_eq_name_iff {bytes : Bytes} {keyword : Command} :
    decode bytes = keyword.name ↔ Spells keyword bytes :=
  decode_eq_iff keyword.isAscii_name

/-- A literal is a keyword exactly if it spells it. -/
theorem Token.literalKind_eq_command_iff {bytes : Bytes} {keyword : Command} :
    literalKind bytes = .command keyword ↔ Spells keyword bytes := by
  rw [← decode_eq_name_iff, ← Command.ofName?_eq_some_iff]
  unfold literalKind
  cases Command.ofName? (decode bytes) <;> simp

/-- A literal is a plain literal exactly if it spells no keyword. -/
theorem Token.literalKind_eq_literal_iff {bytes : Bytes} :
    literalKind bytes = .literal ↔ ∀ keyword, ¬ Spells keyword bytes := by
  simp only [← decode_eq_name_iff, ← Command.ofName?_eq_some_iff]
  unfold literalKind
  cases Command.ofName? (decode bytes) <;> simp

/-- A literal looks like its kind. -/
theorem IsLiteral.shape {bytes rest : Bytes} (literal : IsLiteral bytes rest) :
    Shape (Token.literalKind bytes) bytes rest := by
  cases kind : Command.ofName? (decode bytes) with
  | none =>
    have plain : Token.literalKind bytes = .literal := by simp only [Token.literalKind, kind]
    rw [plain]
    exact ⟨literal, Token.literalKind_eq_literal_iff.mp plain⟩
  | some keyword =>
    have command : Token.literalKind bytes = .command keyword := by
      simp only [Token.literalKind, kind]
    rw [command]
    exact ⟨literal, Token.literalKind_eq_command_iff.mp command⟩

/-! ## Comments -/

/-- A comment is cut off through its first closing mark. -/
theorem Token.cutComment_of_close {inside : Bytes} (rest : Bytes)
    (close : commentClose <:+ inside) (first : ¬ commentClose <:+: inside.dropLast) :
    cutComment (inside ++ rest) = (inside, rest) := by
  induction inside with
  | nil => simp [commentClose] at close
  | cons one tail ih =>
    cases tail with
    | nil =>
      have short := close.length_le
      simp [commentClose] at short
    | cons two more =>
      by_cases mark : one = Byte.star ∧ two = Byte.slash
      · -- the closing mark at the front is the first one, so nothing stands behind it
        have last : more = [] := by
          by_contra other
          apply first
          rw [List.dropLast_cons_of_ne_nil (by simp), List.dropLast_cons_of_ne_nil other,
            mark.1, mark.2]
          exact (List.prefix_append commentClose more.dropLast).isInfix
        subst last
        simp [cutComment, mark]
      · have close' : commentClose <:+ two :: more := by
          rcases List.suffix_cons_iff.mp close with whole | inner
          · simp only [commentClose, List.cons.injEq] at whole
            exact absurd ⟨whole.1.symm, whole.2.1.symm⟩ mark
          · exact inner
        have first' : ¬ commentClose <:+: (two :: more).dropLast := by
          intro inner
          apply first
          rw [List.dropLast_cons_of_ne_nil (by simp)]
          exact inner.trans (List.suffix_cons _ _).isInfix
        have step := ih close' first'
        simp only [List.cons_append] at step ⊢
        simp only [cutComment, if_neg mark, step]

/-- A comment without a closing mark is cut off through the end. -/
theorem Token.cutComment_of_open {inside : Bytes} (opened : ¬ commentClose <:+: inside) :
    cutComment inside = (inside, []) := by
  fun_induction cutComment inside with
  | case1 one two rest mark =>
    exfalso
    apply opened
    rw [mark.1, mark.2]
    exact (List.prefix_append commentClose rest).isInfix
  | case2 one two rest mark inside after cut ih =>
    have inner : ¬ commentClose <:+: two :: rest := fun inner =>
      opened (inner.trans (List.suffix_cons _ _).isInfix)
    obtain ⟨rfl, rfl⟩ := Prod.mk.inj (cut.symm.trans (ih inner))
    rfl
  | case3 => rfl

/-- What is cut off as the inside of a comment is closed at its end and not before, or it is all
that there is and not closed. -/
theorem Token.cutComment_cases (input : Bytes) :
    commentClose <:+ (cutComment input).1 ∧ ¬ commentClose <:+: (cutComment input).1.dropLast ∨
      (cutComment input).2 = [] ∧ ¬ commentClose <:+: (cutComment input).1 := by
  fun_induction cutComment input with
  | case1 one two rest mark =>
    refine Or.inl ⟨?_, ?_⟩
    · rw [mark.1, mark.2]
      exact List.suffix_refl _
    · intro inner
      have short := inner.length_le
      simp [commentClose] at short
  | case2 one two rest mark inside after cut ih =>
    -- a closing mark in front of `two :: rest` would begin with `one` and `two`
    have whole := Token.cutComment_append (two :: rest)
    rw [cut] at ih whole
    have front : ¬ commentClose <+: one :: inside := by
      intro close
      have long : commentClose <+: one :: two :: rest := by
        rw [← whole]
        exact close.trans (List.prefix_append (one :: inside) after)
      simp only [commentClose, List.cons_prefix_cons] at long
      exact mark ⟨long.1.symm, long.2.1.symm⟩
    rcases ih with ⟨close, first⟩ | ⟨nothing, opened⟩
    · have some : inside ≠ [] := by
        rintro rfl
        simp [commentClose] at close
      refine Or.inl ⟨close.trans (List.suffix_cons one inside), ?_⟩
      rw [List.dropLast_cons_of_ne_nil some, List.infix_cons_iff]
      rintro (close | inner)
      · apply front
        exact close.trans (List.cons_prefix_cons.mpr ⟨rfl, List.dropLast_prefix inside⟩)
      · exact first inner
    · refine Or.inr ⟨nothing, ?_⟩
      rw [List.infix_cons_iff]
      rintro (close | inner)
      · exact front close
      · exact opened inner
  | case3 short none =>
    refine Or.inr ⟨rfl, ?_⟩
    intro close
    have long := close.length_le
    rcases short with _ | ⟨one, _ | ⟨two, more⟩⟩
    · simp [commentClose] at long
    · simp [commentClose] at long
    · exact none one two more rfl

/-! ## What looks like a token is cut off -/

/-- What may follow a literal is what the scanner stops at. -/
theorem IsLiteral.stops {bytes rest : Bytes} (literal : IsLiteral bytes rest) : Stops rest := by
  rcases literal.behind with rfl | ⟨byte, mem, head⟩ | ⟨beyond, rfl⟩
  · exact stops_nil
  · obtain ⟨beyond, rfl⟩ := List.head?_eq_some_iff.mp head
    simp only [List.mem_cons, List.not_mem_nil, or_false] at mem
    rcases mem with rfl | rfl | rfl | rfl <;> exact stops_cons (by decide) (by decide)
  · rintro _ ⟨⟩
    exact ⟨by decide, fun _ => rfl⟩

namespace LiteralRun

variable {run rest : Bytes} {first : UInt8} {more : Bytes}

/-- No byte of a run ends a literal. -/
theorem endsLiteral_eq_false (h : LiteralRun run) : ∀ byte ∈ run, Byte.endsLiteral byte = false := by
  intro byte mem
  have other := h.inside byte mem
  simp only [List.mem_cons, List.not_mem_nil, or_false, not_or] at other
  simp [Byte.endsLiteral, other]

/-- The first byte of a run is not skipped and begins nothing but a literal. -/
theorem first_cases (h : LiteralRun (first :: more)) :
    Byte.isBlank first = false ∧ Token.singleByte? first = none ∧ first ≠ Byte.carriageReturn := by
  have other := h.first first rfl
  simp only [List.mem_cons, List.not_mem_nil, or_false, not_or] at other
  refine ⟨?_, ?_, other.2.2.2.1⟩
  · simp [Byte.isBlank, other]
  · simp [Token.singleByte?, other]

/-- A run and what follows it do not begin a comment, if a star cannot follow. -/
theorem not_comment (h : LiteralRun (first :: more)) (star : rest.head? ≠ some Byte.star) :
    ¬ (first = Byte.slash ∧ (more ++ rest).head? = some Byte.star) := by
  rintro ⟨rfl, second⟩
  cases more with
  | nil => exact star second
  | cons two more =>
    obtain rfl : two = Byte.star := by simpa using second
    exact h.no_comment (List.prefix_append commentOpen more)

/-- A run that is not empty begins with no blank. -/
theorem head_not_isBlank (h : LiteralRun run) (ne_nil : run ≠ []) :
    ∀ byte ∈ (run ++ rest).head?, Byte.isBlank byte = false := by
  intro byte head
  cases run with
  | nil => exact absurd rfl ne_nil
  | cons first more =>
    obtain rfl : first = byte := by simpa using head
    exact h.first_cases.1

/-- A run is cut off as a literal or as an invalid token, whatever ends it. -/
theorem cutToken_eq (h : LiteralRun run) (ne_nil : run ≠ []) (star : rest.head? ≠ some Byte.star) :
    Token.cutToken (run ++ rest) = Token.cutLiteral (run ++ rest) := by
  cases run with
  | nil => exact absurd rfl ne_nil
  | cons first more =>
    obtain ⟨-, single, noReturn⟩ := h.first_cases
    have noComment := h.not_comment star
    rw [List.cons_append]
    simp only [Token.cutToken, single, noReturn, false_and, if_false, if_neg noComment]

end LiteralRun

namespace Token

variable {kind : TokenKind} {gap bytes rest : Bytes}

/-- A run before a carriage return alone is cut off with it, as an invalid token. -/
theorem cutLiteral_of_return {run : Bytes} (h : LiteralRun run)
    (alone : rest.head? ≠ some Byte.lineFeed) :
    cutLiteral (run ++ Byte.carriageReturn :: rest) =
      (.invalid, run ++ [Byte.carriageReturn], rest) := by
  have whole : ∀ byte ∈ run, (!Byte.endsLiteral byte) = true := by
    simpa using h.endsLiteral_eq_false
  have ends : Byte.endsLiteral Byte.carriageReturn = true := by decide
  simp only [cutLiteral, List.takeWhile_append_of_pos whole, List.dropWhile_append_of_pos whole,
    List.takeWhile_cons, List.dropWhile_cons, ends]
  simp [alone]

/-- A carriage return alone is cut off as an invalid token. -/
theorem cutToken_of_return (alone : rest.head? ≠ some Byte.lineFeed) :
    cutToken (Byte.carriageReturn :: rest) = (.invalid, [Byte.carriageReturn], rest) := by
  have single : singleByte? Byte.carriageReturn = none := by decide
  have noSlash : Byte.carriageReturn ≠ Byte.slash := by decide
  have ends : Byte.endsLiteral Byte.carriageReturn = true := by decide
  simp only [cutToken, single, alone, noSlash, and_false, false_and, if_false]
  simp [cutLiteral, ends, alone]

/-- A literal is cut off as what it spells. -/
theorem cutToken_of_literal (literal : IsLiteral bytes rest) :
    cutToken (bytes ++ rest) = (literalKind bytes, bytes, rest) := by
  have star : rest.head? ≠ some Byte.star := by
    intro second
    exact absurd (literal.stops Byte.star second).1 (by decide)
  rw [literal.run.cutToken_eq literal.ne_nil star]
  exact cutLiteral_of_stops literal.run.endsLiteral_eq_false literal.stops

/-- What looks like a comment is cut off as a comment. -/
theorem cutToken_of_comment (comment : IsComment bytes rest) :
    cutToken (bytes ++ rest) = (.comment, bytes, rest) := by
  obtain ⟨⟨inside, rfl⟩, closed⟩ := comment
  have cut : cutComment (inside ++ rest) = (inside, rest) := by
    rcases closed with ⟨close, first⟩ | ⟨rfl, opened⟩
    · exact cutComment_of_close rest close first
    · rw [List.append_nil]
      exact cutComment_of_open opened
  have single : singleByte? Byte.slash = none := by decide
  have noReturn : Byte.slash ≠ Byte.carriageReturn := by decide
  show cutToken (Byte.slash :: Byte.star :: (inside ++ rest)) = _
  simp only [cutToken, single, noReturn, false_and, if_false, List.head?_cons, and_self, if_true,
    List.tail_cons, cut]
  rfl

/-- **What looks like a token is cut off as that token.** -/
theorem cutToken_of_shape (shape : Shape kind bytes rest) :
    cutToken (bytes ++ rest) = (kind, bytes, rest) := by
  cases kind with
  | eof =>
    obtain ⟨rfl, rfl⟩ := shape
    rfl
  | invalid =>
    obtain ⟨⟨run, isRun, rfl⟩, alone⟩ := shape
    rw [List.append_assoc, List.singleton_append]
    by_cases empty : run = []
    · subst empty
      exact cutToken_of_return alone
    · rw [isRun.cutToken_eq empty (by simp; decide)]
      exact cutLiteral_of_return isRun alone
  | newline =>
    rcases shape with rfl | rfl
    · rfl
    · rfl
  | lparen | rparen | lbrace | rbrace =>
    obtain rfl := shape
    rfl
  | comment => exact cutToken_of_comment shape
  | command keyword =>
    rw [cutToken_of_literal shape.1, literalKind_eq_command_iff.mpr shape.2]
  | literal => rw [cutToken_of_literal shape.1, literalKind_eq_literal_iff.mpr shape.2]

/-- What looks like a token begins with no blank. -/
theorem not_isBlank_of_shape (shape : Shape kind bytes rest) :
    ∀ byte ∈ (bytes ++ rest).head?, Byte.isBlank byte = false := by
  cases kind with
  | eof =>
    obtain ⟨rfl, rfl⟩ := shape
    simp
  | invalid =>
    obtain ⟨⟨run, isRun, rfl⟩, -⟩ := shape
    rw [List.append_assoc]
    by_cases empty : run = []
    · subst empty
      rintro _ ⟨⟩
      decide
    · exact isRun.head_not_isBlank empty
  | newline =>
    rcases shape with rfl | rfl
    · rintro _ ⟨⟩
      decide
    · rintro _ ⟨⟩
      decide
  | lparen | rparen | lbrace | rbrace =>
    obtain rfl := shape
    rintro _ ⟨⟩
    decide
  | comment =>
    obtain ⟨⟨inside, rfl⟩, -⟩ := shape
    rintro _ ⟨⟩
    decide
  | command keyword => exact shape.1.run.head_not_isBlank shape.1.ne_nil
  | literal => exact shape.1.run.head_not_isBlank shape.1.ne_nil

/-- **What looks like a token behind blanks is cut off as that token.** -/
theorem next_of_shape (blank : ∀ byte ∈ gap, Byte.isBlank byte) (shape : Shape kind bytes rest) :
    next (gap ++ bytes ++ rest) = ⟨gap, kind, bytes, rest⟩ := by
  rw [List.append_assoc, next_of_gap blank (not_isBlank_of_shape shape), cutToken_of_shape shape]

end Token

/-- No bytes look like tokens of two kinds. -/
theorem Shape.kind_unique {kind other : TokenKind} {bytes rest : Bytes}
    (shape : Shape kind bytes rest) (shape' : Shape other bytes rest) : kind = other := by
  have same := (Token.cutToken_of_shape shape).symm.trans (Token.cutToken_of_shape shape')
  exact (Prod.mk.inj same).1

/-! ## What is cut off looks like its kind -/

namespace Token

/-- The kinds of single bytes look like them. -/
theorem shape_of_singleByte {byte : UInt8} {kind : TokenKind} {rest : Bytes}
    (single : singleByte? byte = some kind) : Shape kind [byte] rest := by
  unfold singleByte? at single
  repeat' split at single
  all_goals cases single
  all_goals simp_all [Shape]

/-- The bytes up to one that ends a literal are a run, where nothing else begins. -/
theorem literalRun_takeWhile {first : UInt8} {more : Bytes} (blank : Byte.isBlank first = false)
    (single : singleByte? first = none)
    (comment : ¬ (first = Byte.slash ∧ more.head? = some Byte.star)) :
    LiteralRun ((first :: more).takeWhile (!Byte.endsLiteral ·)) where
  first := by
    intro byte head mem
    rw [List.head?_takeWhile, List.head?_cons, Option.mem_def, Option.filter_eq_some_iff] at head
    obtain ⟨⟨⟩, ends⟩ := head
    simp only [List.mem_cons, List.not_mem_nil, or_false] at mem
    rcases mem with rfl | rfl | rfl | rfl | rfl | rfl | rfl | rfl <;> revert blank single ends <;>
      decide
  no_comment := by
    intro opens
    apply comment
    obtain ⟨rest, whole⟩ := opens.trans (List.takeWhile_prefix _)
    obtain ⟨rfl, rfl⟩ := List.cons.inj whole
    exact ⟨rfl, rfl⟩
  inside := by
    intro byte within mem
    have ends := List.all_eq_true.mp List.all_takeWhile byte within
    simp only [List.mem_cons, List.not_mem_nil, or_false] at mem
    rcases mem with rfl | rfl | rfl | rfl | rfl <;> revert ends <;> decide

/-- What is cut off where nothing else begins looks like a literal, a keyword or an invalid
token. -/
theorem shape_cutLiteral {first : UInt8} {more : Bytes} (blank : Byte.isBlank first = false)
    (single : singleByte? first = none)
    (newline : ¬ (first = Byte.carriageReturn ∧ more.head? = some Byte.lineFeed))
    (comment : ¬ (first = Byte.slash ∧ more.head? = some Byte.star)) :
    Shape (cutLiteral (first :: more)).1 (cutLiteral (first :: more)).2.1
      (cutLiteral (first :: more)).2.2 := by
  have ne_nil := cutLiteral_bytes_ne_nil single blank newline
  have isRun := literalRun_takeWhile blank single comment
  have stop := List.head?_dropWhile_not (!Byte.endsLiteral ·) (first :: more)
  unfold cutLiteral at ne_nil ⊢
  dsimp only at ne_nil ⊢
  generalize (first :: more).takeWhile (!Byte.endsLiteral ·) = run at *
  generalize (first :: more).dropWhile (!Byte.endsLiteral ·) = after at *
  split
  · next alone => exact ⟨⟨run, isRun, rfl⟩, alone.2⟩
  · next ends =>
    rw [if_neg ends] at ne_nil
    refine IsLiteral.shape ⟨ne_nil, isRun, ?_⟩
    cases after with
    | nil => exact Or.inl rfl
    | cons byte beyond =>
      -- the byte that ended the run is a carriage return only if a line feed follows
      by_cases isReturn : byte = Byte.carriageReturn
      · have feed : beyond.head? = some Byte.lineFeed := by simpa [isReturn] using ends
        obtain ⟨rest, rfl⟩ := List.head?_eq_some_iff.mp feed
        exact Or.inr (Or.inr (isReturn ▸ List.prefix_append _ rest))
      · refine Or.inr (Or.inl ⟨byte, ?_, rfl⟩)
        have ends : Byte.endsLiteral byte = true := by simpa using stop
        simpa [Byte.endsLiteral, isReturn, or_assoc] using ends

/-- **What is cut off looks like its kind**, if it begins with no blank. -/
theorem shape_cutToken {input : Bytes} (start : ∀ byte ∈ input.head?, Byte.isBlank byte = false) :
    Shape (cutToken input).1 (cutToken input).2.1 (cutToken input).2.2 := by
  unfold cutToken
  split
  · exact ⟨rfl, rfl⟩
  · next first more =>
    split
    · next kind single => exact shape_of_singleByte single
    · next single =>
      split
      · next newline => exact Or.inr (by rw [newline.1])
      · next newline =>
        split
        · next comment =>
          rw [comment.1]
          refine ⟨List.prefix_append commentOpen _, ?_⟩
          exact cutComment_cases more.tail
        · next comment => exact shape_cutLiteral (start first rfl) single newline comment

/-- **What is cut off looks like its kind.** -/
theorem shape_next (input : Bytes) :
    Shape (next input).kind (next input).bytes (next input).rest := by
  apply shape_cutToken
  intro byte head
  have stop := List.head?_dropWhile_not Byte.isBlank input
  rw [Option.mem_def.mp head] at stop
  simpa using stop

end Token

/-! ## The whole source -/

namespace Tokenized

variable {offset : Nat} {input : Bytes} {tokens : List Token}

/-- The tokens of a cut look like their kinds, in the source that they were cut from. -/
theorem shape (h : Tokenized offset input tokens) (front : Bytes) (length : front.length = offset) :
    ∀ token ∈ tokens, Shape token.kind (token.span.slice (front ++ input))
      ((front ++ input).drop token.span.stop) := by
  induction h generalizing front with
  | @eof offset gap _ =>
    intro token mem
    subst length
    rw [List.mem_singleton.mp mem]
    simp [Shape, Span.slice]
  | @token offset gap bytes rest kind tokens _ _ shape _ ih =>
    intro token mem
    subst length
    rcases List.mem_cons.mp mem with rfl | behind
    · have cut := Span.slice_middle (front ++ gap) bytes rest
      have left : (front ++ gap ++ bytes ++ rest).drop
          (front.length + gap.length + bytes.length) = rest := by
        rw [← List.length_append, ← List.length_append, List.drop_left]
      simp only [List.length_append, List.append_assoc] at cut left ⊢
      simpa only [cut, left] using shape
    · have tail := ih (front ++ gap ++ bytes) (by simp [Nat.add_assoc]) token behind
      simpa only [List.append_assoc] using tail

/-- **There is one way only** to cut a source into tokens that look like their kinds. -/
theorem eq_scanFrom (h : Tokenized offset input tokens) (mark : Mark)
    (start : mark.offset = offset) : tokens = (scanFrom mark input).map (·.toToken) := by
  induction h generalizing mark with
  | @eof offset gap blank =>
    subst start
    have shape : Shape .eof [] [] := ⟨rfl, rfl⟩
    have cut := Token.next_of_shape blank shape
    rw [List.append_nil, List.append_nil] at cut
    rw [scanFrom]
    simp [cut, Cut.lexeme]
  | @token offset gap bytes rest kind tokens blank other shape _ ih =>
    subst start
    have cut := Token.next_of_shape blank shape
    have behind : (mark.past kind (mark.offset + gap.length + bytes.length)).offset =
        mark.offset + gap.length + bytes.length := Mark.offset_past _ _ _
    rw [scanFrom_of_next cut other, List.map_cons, ih _ behind]
    rfl

end Tokenized

/-- **The tokens of a scan look like their kinds.** -/
theorem tokenized_scanFrom (mark : Mark) (input : Bytes) :
    Tokenized mark.offset input ((scanFrom mark input).map (·.toToken)) := by
  fun_induction scanFrom mark input with
  | case1 mark input cut lexeme eof =>
    obtain ⟨gap, bytes⟩ := Token.next_of_kind_eof eof
    have token : lexeme.toToken =
        ⟨.eof, ⟨mark.offset + input.length, mark.offset + input.length⟩⟩ := by
      simp [lexeme, Cut.lexeme, cut, eof, gap, bytes]
    rw [List.map_singleton, token]
    refine Tokenized.eof ?_
    intro byte mem
    exact Token.isBlank_of_mem_gap (gap.symm ▸ mem)
  | case2 mark input cut lexeme other ih =>
    have offset : (mark.past lexeme.kind lexeme.span.stop).offset =
        mark.offset + cut.gap.length + cut.bytes.length := Mark.offset_past _ _ _
    have whole : cut.gap ++ cut.bytes ++ cut.rest = input := Token.next_append input
    rw [offset] at ih
    rw [← whole]
    refine Tokenized.token ?_ other (Token.shape_next input) ih
    intro byte mem
    exact Token.isBlank_of_mem_gap mem

/-- A token of a scan looks like its kind. -/
theorem scan_shape {source : Bytes} {lexeme : Lexeme} (mem : lexeme ∈ scan source) :
    Shape lexeme.kind (lexeme.span.slice source) (source.drop lexeme.span.stop) :=
  (tokenized_scanFrom Mark.origin source).shape [] rfl lexeme.toToken (List.mem_map_of_mem mem)

/-- The bytes of a keyword spell it. -/
theorem scan_spells {source : Bytes} {lexeme : Lexeme} {keyword : Command}
    (mem : lexeme ∈ scan source) (kind : lexeme.kind = .command keyword) :
    Spells keyword lexeme.bytes := by
  have shape := scan_shape mem
  obtain ⟨before, after, place⟩ := List.append_of_mem mem
  rw [kind, ← (scan_split place).2.2.2.2] at shape
  exact shape.2

/-- **The scan refines a declarative tokenization.**  A token of a scan is of a kind exactly if its
bytes and the bytes behind it look like that kind; and the tokens of the scan are the one way to
cut the source into blanks and tokens that look like their kinds. -/
theorem scan_refines_shapes (source : Bytes) :
    (∀ lexeme ∈ scan source, ∀ kind, lexeme.kind = kind ↔
      Shape kind (lexeme.span.slice source) (source.drop lexeme.span.stop)) ∧
    ∀ tokens, Tokenized 0 source tokens ↔ tokens = (scan source).map (·.toToken) := by
  refine ⟨?_, ?_⟩
  · intro lexeme mem kind
    have shape := scan_shape mem
    constructor
    · rintro rfl
      exact shape
    · intro shape'
      exact shape.kind_unique shape'
  · intro tokens
    constructor
    · intro cut
      exact cut.eq_scanFrom Mark.origin rfl
    · rintro rfl
      exact tokenized_scanFrom Mark.origin source

end LinkScript
