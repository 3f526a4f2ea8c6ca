import LinkScript.Token.Scan
import LinkScript.Proofs.Text.Utf8

/-!
# Words that the scanner finds again

A text that is written between blanks need not come back as the token it was meant to be: it may
hold a byte that ends a literal, begin another token, or lose a byte order mark.

* `Plain` texts do none of this.  What tells them from others is mostly their first character:
  tabs, braces and comment marks do no harm inside.
* `Stops` is what may follow a literal for it to end there.
* `Token.next_of_plain` scans a plain text behind blanks, and `Token.next_of_single` a bracket.
-/

namespace LinkScript

/-! ## Plain texts -/

/-- A text that is one literal where it stands between blanks, keyword or not. -/
structure Plain (text : String) : Prop where
  /-- It has a character. -/
  ne_empty : text ≠ ""
  /-- Its first character is no byte order mark, is not skipped, and is no token by itself. -/
  first : ∀ char ∈ text.toList.head?,
    char ∉ ['\uFEFF', ' ', '\t', '\n', '\r', '(', ')', '\x7b', '\x7d']
  /-- It does not begin like a comment. -/
  no_comment : ¬ ['/', '*'] <+: text.toList
  /-- None of its characters ends a literal. -/
  inside : ∀ char ∈ text.toList, char ∉ [' ', '(', ')', '\n', '\r']

/-- Whether a text is plain, read off its characters. -/
def Plain.check (text : String) : Bool :=
  text != "" &&
    text.toList.head?.all
      (· ∉ ['\uFEFF', ' ', '\t', '\n', '\r', '(', ')', '\x7b', '\x7d']) &&
    !List.isPrefixOf ['/', '*'] text.toList &&
    text.toList.all (· ∉ [' ', '(', ')', '\n', '\r'])

/-- The check finds the plain texts. -/
theorem Plain.check_iff {text : String} : Plain.check text = true ↔ Plain text := by
  simp only [check, Bool.and_eq_true, bne_iff_ne, Bool.not_eq_true', ← Bool.not_eq_true,
    List.isPrefixOf_iff_prefix, Option.all_eq_true, List.all_eq_true, decide_eq_true_eq]
  constructor
  · rintro ⟨⟨⟨ne_empty, first⟩, no_comment⟩, inside⟩
    exact ⟨ne_empty, first, no_comment, inside⟩
  · intro plain
    exact ⟨⟨⟨plain.ne_empty, plain.first⟩, plain.no_comment⟩, plain.inside⟩

instance (text : String) : Decidable (Plain text) := decidable_of_iff _ Plain.check_iff

/-- What may follow a literal: nothing, or a byte that ends it without making it invalid. -/
def Stops (rest : Bytes) : Prop :=
  ∀ byte ∈ rest.head?, Byte.endsLiteral byte ∧
    (byte = Byte.carriageReturn → rest.tail.head? = some Byte.lineFeed)

/-- Nothing ends a literal. -/
theorem stops_nil : Stops [] := by
  simp [Stops]

/-- A byte that ends literals ends one, unless it is a carriage return. -/
theorem stops_cons {byte : UInt8} {rest : Bytes} (ends : Byte.endsLiteral byte)
    (other : byte ≠ Byte.carriageReturn) : Stops (byte :: rest) := by
  rintro _ ⟨⟩
  exact ⟨ends, fun isReturn => absurd isReturn other⟩

namespace Plain

open Text.Utf8

variable {text : String}

/-- The bytes of a plain text decode to it. -/
theorem decode_eq (plain : Plain text) : decode (encode text) = text := by
  apply decode_encode
  intro mark
  simpa using plain.first _ mark

/-- No byte of a plain text ends a literal. -/
theorem endsLiteral_eq_false (plain : Plain text) {byte : UInt8} (mem : byte ∈ encode text) :
    Byte.endsLiteral byte = false := by
  rw [Bool.eq_false_iff]
  intro ends
  have ascii : byte ≤ 0x7F := by
    simp only [Byte.endsLiteral, Bool.or_eq_true, beq_iff_eq] at ends
    rcases ends with (((rfl | rfl) | rfl) | rfl) | rfl <;> decide
  have outside := plain.inside _ (mem_of_mem_encode mem ascii)
  simp only [Byte.endsLiteral, Bool.or_eq_true, beq_iff_eq] at ends
  rcases ends with (((rfl | rfl) | rfl) | rfl) | rfl <;> revert outside <;> decide

/-- The first byte of a plain text: it is not skipped and begins nothing but a literal. -/
theorem exists_first (plain : Plain text) : ∃ first more, encode text = first :: more ∧
    Byte.isBlank first = false ∧ Token.singleByte? first = none ∧ first ≠ Byte.carriageReturn := by
  cases bytes : encode text with
  | nil =>
    have empty := decodeKeepingMark_encode text
    rw [bytes] at empty
    exact absurd empty.symm plain.ne_empty
  | cons first more =>
    -- a first byte below 0x80 is the first character
    have char : first ≤ 0x7F → Char.ofNat first.toNat ∉
        ['\uFEFF', ' ', '\t', '\n', '\r', '(', ')', '\x7b', '\x7d'] := by
      intro ascii
      apply plain.first
      simp [toList_of_encode bytes ascii]
    have other : ∀ byte ∈ [Byte.space, Byte.tab, Byte.lineFeed, Byte.carriageReturn,
        Byte.leftParen, Byte.rightParen, Byte.leftBrace, Byte.rightBrace], first ≠ byte := by
      rintro byte mem rfl
      simp only [List.mem_cons, List.not_mem_nil, or_false] at mem
      rcases mem with rfl | rfl | rfl | rfl | rfl | rfl | rfl | rfl <;>
        exact absurd (char (by decide)) (by decide)
    simp only [List.mem_cons, List.not_mem_nil, or_false, forall_eq_or_imp, forall_eq] at other
    exact ⟨first, more, rfl, by simp [Byte.isBlank, other], by simp [Token.singleByte?, other],
      other.2.2.2.1⟩

/-- A plain text and what follows it do not begin a comment. -/
theorem not_comment (plain : Plain text) {rest : Bytes} (stops : Stops rest) {first : UInt8}
    {more : Bytes} (bytes : encode text = first :: more) :
    ¬ (first = Byte.slash ∧ (more ++ rest).head? = some Byte.star) := by
  rintro ⟨rfl, star⟩
  have front := toList_of_encode bytes (by decide)
  cases more with
  | nil =>
    have ends := (stops Byte.star (by simpa using star)).1
    exact absurd ends (by decide)
  | cons second more =>
    obtain rfl : second = Byte.star := by simpa using star
    rw [run_ascii (by decide)] at front
    refine plain.no_comment ⟨run none more, ?_⟩
    rw [front]
    rfl

end Plain

/-! ## Cutting words off -/

namespace Token

open Text.Utf8

/-- Blanks are skipped up to the byte where a token begins. -/
theorem next_of_gap {gap input : Bytes} (blank : ∀ byte ∈ gap, Byte.isBlank byte)
    (start : ∀ byte ∈ input.head?, Byte.isBlank byte = false) :
    next (gap ++ input) =
      ⟨gap, (cutToken input).1, (cutToken input).2.1, (cutToken input).2.2⟩ := by
  have take : input.takeWhile Byte.isBlank = [] := by
    cases input with
    | nil => rfl
    | cons first rest => simp [start first rfl]
  have drop : input.dropWhile Byte.isBlank = input := by
    cases input with
    | nil => rfl
    | cons first rest => simp [start first rfl]
  simp only [next, List.takeWhile_append_of_pos blank, List.dropWhile_append_of_pos blank, take,
    drop, List.append_nil]

/-- A literal is cut off where something stops it. -/
theorem cutLiteral_of_stops {run rest : Bytes}
    (inside : ∀ byte ∈ run, Byte.endsLiteral byte = false) (stops : Stops rest) :
    cutLiteral (run ++ rest) = (literalKind run, run, rest) := by
  have whole : ∀ byte ∈ run, (!Byte.endsLiteral byte) = true := by
    simpa using inside
  have take : rest.takeWhile (!Byte.endsLiteral ·) = [] := by
    cases rest with
    | nil => rfl
    | cons first rest => simp [(stops first rfl).1]
  have drop : rest.dropWhile (!Byte.endsLiteral ·) = rest := by
    cases rest with
    | nil => rfl
    | cons first rest => simp [(stops first rfl).1]
  have complete : ¬ (rest.head? = some Byte.carriageReturn ∧
      rest.tail.head? ≠ some Byte.lineFeed) := by
    rintro ⟨head, alone⟩
    exact alone ((stops _ head).2 rfl)
  simp only [cutLiteral, List.takeWhile_append_of_pos whole, List.dropWhile_append_of_pos whole,
    take, drop, List.append_nil, if_neg complete]

/-- The name of a keyword is that keyword. -/
theorem literalKind_name (keyword : Command) :
    literalKind (encode keyword.name) = .command keyword := by
  cases keyword <;> decide +kernel

/-- A plain text that is no keyword is a literal. -/
theorem literalKind_of_plain {text : String} (plain : Plain text)
    (other : ∀ keyword : Command, keyword.name ≠ text) : literalKind (encode text) = .literal := by
  have none : Command.ofName? text = none := by
    rw [Command.ofName?, List.find?_eq_none]
    intro keyword _
    simpa using other keyword
  simp only [literalKind, plain.decode_eq, none]

/-- **A plain text behind blanks is cut off whole.** -/
theorem next_of_plain {text : String} {gap rest : Bytes} (plain : Plain text)
    (blank : ∀ byte ∈ gap, Byte.isBlank byte) (stops : Stops rest) :
    next (gap ++ (encode text ++ rest)) =
      ⟨gap, literalKind (encode text), encode text, rest⟩ := by
  obtain ⟨first, more, bytes, start, single, noReturn⟩ := plain.exists_first
  have noComment := plain.not_comment stops bytes
  have inside : ∀ byte ∈ encode text, Byte.endsLiteral byte = false := fun _ mem =>
    plain.endsLiteral_eq_false mem
  rw [bytes] at inside ⊢
  rw [next_of_gap blank (by simpa using start), List.cons_append]
  simp only [cutToken, single, noReturn, false_and, if_false, if_neg noComment]
  rw [← List.cons_append, cutLiteral_of_stops inside stops]

/-- A byte that is a token by itself is cut off behind blanks. -/
theorem next_of_single {byte : UInt8} {kind : TokenKind} {gap rest : Bytes}
    (single : singleByte? byte = some kind) (blank : ∀ byte ∈ gap, Byte.isBlank byte) :
    next (gap ++ byte :: rest) = ⟨gap, kind, [byte], rest⟩ := by
  have start : Byte.isBlank byte = false := by
    rw [Bool.eq_false_iff]
    intro skipped
    simp only [Byte.isBlank, Bool.or_eq_true, beq_iff_eq] at skipped
    have nothing : singleByte? Byte.space = none ∧ singleByte? Byte.tab = none := by decide
    rcases skipped with rfl | rfl <;> simp [nothing] at single
  rw [next_of_gap blank (by simpa using start)]
  simp only [cutToken, single]

end Token

/-! ## Scans -/

/-- Kind and text of a lexeme, without its place. -/
def Lexeme.sign (lexeme : Lexeme) : TokenKind × String := (lexeme.kind, lexeme.text)

/-- A scan begins with the token that is cut off, and goes on behind it. -/
theorem scanFrom_of_next {mark : Mark} {input : Bytes} {cut : Cut}
    (h : Token.next input = cut) (other : cut.kind ≠ .eof) :
    scanFrom mark input = cut.lexeme mark ::
      scanFrom (mark.past cut.kind (cut.lexeme mark).span.stop) cut.rest := by
  subst h
  rw [scanFrom]
  simp only [other, dite_false]
  rfl

/-- A scan that begins with `eof` is that `eof`. -/
theorem scanFrom_of_eof {mark : Mark} {input : Bytes} (eof : (Token.next input).kind = .eof) :
    scanFrom mark input = [(Token.next input).lexeme mark] := by
  rw [scanFrom]
  exact dif_pos eof

/-- A scan of nothing is its `eof`. -/
theorem scanFrom_nil (mark : Mark) :
    ∃ lexeme, scanFrom mark [] = [lexeme] ∧ lexeme.kind = .eof := by
  rw [scanFrom]
  exact ⟨_, rfl, rfl⟩

end LinkScript
