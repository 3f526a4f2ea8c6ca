import LinkScript.Check
import LinkScript.Proofs.Script.Refusal

/-!
# Object files are no scripts

An object file is passed over without being read, so no script may be lost that way.  The first
bytes of an object file begin nothing but a literal, whatever follows them; no keyword begins like
that, and a script does not begin with any other literal.

* `Token.next_of_magic`: the first token of an object file holds the magic number, and it is a
  literal or invalid.
* `scan_of_isElf`: so the scan begins with such a lexeme, at the beginning of the first line.
* `parse_of_isElf`: an object file is refused, for its first invalid token if there is one and for
  its first token if not.
-/

namespace LinkScript

open Text.Utf8

/-! ## The first token -/

namespace Token

/-- Bytes that do not end a literal belong to the token that is cut off with them in front: a
literal, a keyword or an invalid token. -/
theorem cutLiteral_of_lead {lead : Bytes} (inside : ∀ byte ∈ lead, Byte.endsLiteral byte = false)
    (rest : Bytes) :
    lead <+: (cutLiteral (lead ++ rest)).2.1 ∧
      ((cutLiteral (lead ++ rest)).1 = .invalid ∨
        (cutLiteral (lead ++ rest)).1 = literalKind (cutLiteral (lead ++ rest)).2.1) := by
  have whole : ∀ byte ∈ lead, (!Byte.endsLiteral byte) = true := by
    simpa using inside
  unfold cutLiteral
  dsimp only
  rw [List.takeWhile_append_of_pos whole]
  split
  · exact ⟨by simp, Or.inl rfl⟩
  · exact ⟨by simp, Or.inr rfl⟩

/-- The magic number is cut off with what follows it up to the end of a literal. -/
theorem next_magic_append (rest : Bytes) :
    next (elfMagic ++ rest) = ⟨[], (cutLiteral (elfMagic ++ rest)).1,
      (cutLiteral (elfMagic ++ rest)).2.1, (cutLiteral (elfMagic ++ rest)).2.2⟩ := by
  have start : ∀ byte ∈ (elfMagic ++ rest).head?, Byte.isBlank byte = false := by
    rintro byte ⟨⟩
    decide
  have word : cutToken (elfMagic ++ rest) = cutLiteral (elfMagic ++ rest) := by
    have single : singleByte? 0x7F = none := by decide
    have noReturn : (0x7F : UInt8) ≠ Byte.carriageReturn := by decide
    have noSlash : (0x7F : UInt8) ≠ Byte.slash := by decide
    simp only [elfMagic, List.cons_append, cutToken, single, noReturn, noSlash, false_and, if_false]
  have blank : ∀ byte ∈ ([] : Bytes), Byte.isBlank byte := by simp
  rw [← word]
  exact next_of_gap blank start

/-- No keyword begins with the magic number. -/
theorem literalKind_of_magic {bytes : Bytes} (magic : elfMagic <+: bytes) :
    literalKind bytes = .literal := by
  rw [literalKind_eq_literal_iff]
  obtain ⟨rest, rfl⟩ := magic
  rintro keyword (spelled | spelled)
  · cases keyword <;> cases spelled
  · cases spelled

/-- The first token of an object file holds the magic number, and it is a literal or invalid. -/
theorem next_of_magic (rest : Bytes) :
    (next (elfMagic ++ rest)).gap = [] ∧ elfMagic <+: (next (elfMagic ++ rest)).bytes ∧
      ((next (elfMagic ++ rest)).kind = .invalid ∨ (next (elfMagic ++ rest)).kind = .literal) := by
  have all : elfMagic.all (fun byte => !Byte.endsLiteral byte) = true := rfl
  have inside : ∀ byte ∈ elfMagic, Byte.endsLiteral byte = false := by
    simpa using all
  obtain ⟨magic, kind⟩ := cutLiteral_of_lead inside rest
  rw [next_magic_append]
  refine ⟨rfl, magic, kind.imp_right ?_⟩
  intro same
  rw [same, literalKind_of_magic magic]

end Token

/-! ## The whole file -/

variable {source : Bytes}

/-- The scan of an object file begins with a lexeme that holds the magic number. -/
theorem scan_of_isElf (object : isElf source = true) :
    ∃ first rest, scan source = first :: rest ∧ first.position = ⟨0, 0⟩ ∧
      elfMagic <+: first.bytes ∧ (first.kind = .invalid ∨ first.kind = .literal) := by
  obtain ⟨rest, rfl⟩ := isElf_iff.mp object
  obtain ⟨gap, magic, kind⟩ := Token.next_of_magic rest
  have head := head?_scanFrom Mark.origin (elfMagic ++ rest)
  obtain ⟨others, whole⟩ := List.head?_eq_some_iff.mp head
  refine ⟨_, others, whole, ?_, magic, kind⟩
  simp [Cut.lexeme, gap, Mark.position, Mark.origin]

/-- An object file without an invalid token is refused for its first token, a literal. -/
theorem parse_of_magic (object : isElf source = true)
    (valid : ∀ lexeme ∈ scan source, lexeme.kind ≠ .invalid) :
    ∃ word, elfMagic <+: word ∧
      parse source = .error (.link ⟨.unexpectedToken .literal (decode word), ⟨0, 0⟩⟩) := by
  obtain ⟨first, rest, whole, position, magic, kind⟩ := scan_of_isElf object
  have literal : first.kind = .literal := by
    apply kind.resolve_left
    apply valid
    rw [whole]
    exact List.mem_cons_self
  -- At the top level of a script there is no way on with a literal.
  have stuck : Phase.top.next first = none := by
    unfold Phase.next
    rw [literal]
  have place : scan source = [] ++ first :: rest := whole
  have blamed : first.unexpected = ⟨.unexpectedToken .literal (decode first.bytes), ⟨0, 0⟩⟩ := by
    have type : first.type = .literal := by rw [Token.type, literal, TokenKind.type]
    rw [Lexeme.unexpected, type, position, Lexeme.text]
  refine ⟨first.bytes, magic, ?_⟩
  rw [← blamed]
  exact parse_of_stuck (tokenize_eq_scan valid) place rfl stuck rfl

/-- **An object file is refused.**  If a token of its scan is invalid, it is refused for the first
one of these.  If not, it is refused for its first token, which is a literal that begins with the
magic number, at the beginning of the first line.  So it is never read as a script, and never
refused for the architecture that it names. -/
theorem parse_of_isElf (object : isElf source = true) :
    ((∃ lexeme ∈ scan source, lexeme.kind = .invalid) →
      ∃ before lexeme after, scan source = before ++ lexeme :: after ∧ lexeme.kind = .invalid ∧
        (∀ earlier ∈ before, earlier.kind ≠ .invalid) ∧
        parse source = .error (.link ⟨.invalidToken lexeme.bytes, lexeme.position⟩)) ∧
    ((∀ lexeme ∈ scan source, lexeme.kind ≠ .invalid) →
      ∃ word, elfMagic <+: word ∧
        parse source = .error (.link ⟨.unexpectedToken .literal (decode word), ⟨0, 0⟩⟩)) ∧
    (∀ contents, parse source ≠ .ok contents) ∧
    ∀ format position, parse source ≠ .error (.link ⟨.unknownCpuArch format, position⟩) := by
  have outcome : ∃ defect position, parse source = .error (.link ⟨defect, position⟩) ∧
      ∀ format, defect ≠ .unknownCpuArch format := by
    by_cases invalid : ∃ lexeme ∈ scan source, lexeme.kind = .invalid
    · obtain ⟨_, _, _, _, _, _, refused⟩ := parse_of_invalid invalid
      exact ⟨_, _, refused, by simp⟩
    · obtain ⟨_, _, refused⟩ := parse_of_magic object (by simpa using invalid)
      exact ⟨_, _, refused, by simp⟩
  obtain ⟨defect, place, refused, other⟩ := outcome
  refine ⟨parse_of_invalid, parse_of_magic object, ?_, ?_⟩
  · intro contents read
    rw [refused] at read
    cases read
  · intro format position unknown
    rw [refused] at unknown
    cases unknown
    exact other format rfl

/-- An object file that goes on like a script. -/
def scriptLikeObject : Bytes := elfMagic ++ encode "GROUP(libc.so.6)"

/-- An object file with a carriage return alone, behind a comment. -/
def brokenObject : Bytes := elfMagic ++ encode " /* */ \r"

/-- The word with the magic number is refused, unless there is an invalid token further on. -/
theorem parse_of_isElf_scriptLike :
    isElf scriptLikeObject = true ∧ isElf brokenObject = true ∧
    (∃ word, elfMagic <+: word ∧ parse scriptLikeObject =
      .error (.link ⟨.unexpectedToken .literal (decode word), ⟨0, 0⟩⟩)) ∧
    ∃ bytes position, parse brokenObject = .error (.link ⟨.invalidToken bytes, position⟩) := by
  have scriptLike : isElf scriptLikeObject = true := by decide +kernel
  have broken : isElf brokenObject = true := by decide +kernel
  have valid : ∀ lexeme ∈ scan scriptLikeObject, lexeme.kind ≠ .invalid := by decide +kernel
  have invalid : ∃ lexeme ∈ scan brokenObject, lexeme.kind = .invalid := by decide +kernel
  obtain ⟨_, lexeme, _, _, _, _, refused⟩ := (parse_of_isElf broken).1 invalid
  exact ⟨scriptLike, broken, (parse_of_isElf scriptLike).2.1 valid, _, _, refused⟩

end LinkScript
