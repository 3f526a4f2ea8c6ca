import LinkScript.Proofs.Script.Alike
import LinkScript.Proofs.Token.LineBreaks

/-!
# Scripts with longer line breaks

Whether a line of a script ends with a line feed or with a carriage return and a line feed does not
matter to what the script says.  Lines may end in either way within one script.

* `tokenize_withReturns`: the script has the same tokens, or the same one refuses it.
* `Entry.withReturns` and `Contents.withReturns` move spans behind the returns, and nothing else;
  `LinkFailure.Returned` is what may become of a failure.
* `MovedByReturns` relates a lexeme to the one in its place.  What is so related is read alike, so
  `parse_alike` leads from the tokens to the outcome (`parse_returned`).
* `parse_withReturns` puts this together.  Only the text of a newline that is itself to blame tells
  how its line ended.
-/

namespace LinkScript

/-! ## Tokens -/

/-- A source with longer line breaks tokenizes as the source does. -/
theorem tokenize_withReturns {chosen : Nat → Bool} {source : Bytes}
    (chooses : ChoosesLineFeeds chosen 0 (scan source)) :
    tokenize (withReturns chosen 0 source) =
      (tokenize source).map (List.map (Lexeme.withReturn chosen)) := by
  apply tokenize_of_scan_eq_map (scan_withReturns chooses)
  · exact fun _ _ => Iff.rfl
  · intro lexeme mem invalid
    exact invalidToken_withReturn_of_ne_newline chooses mem (by simp [invalid])

/-! ## Contents and failures -/

/-- The entry with its span further on. -/
def Entry.withReturns (chosen : Nat → Bool) (entry : Entry) : Entry :=
  { entry with span := entry.span.withReturns chosen }

/-- The contents with all spans further on. -/
def Contents.withReturns (chosen : Nat → Bool) (contents : Contents) : Contents :=
  { contents with entries := contents.entries.map (Entry.withReturns chosen) }

/-- Failures of one lexeme of a source: they are the same, or they show a newline and the newline
with its return. -/
def LinkFailure.Returned (chosen : Nat → Bool) (source : Bytes) (failure other : LinkFailure) :
    Prop :=
  ∃ lexeme ∈ scan source, lexeme.position = failure.position ∧
    if chosen lexeme.span.start then
      failure.defect = .unexpectedToken .newline "\n" ∧
        other = ⟨.unexpectedToken .newline "\r\n", failure.position⟩
    else other = failure

/-- A lexeme of a source, and the one in its place behind the returns. -/
def MovedByReturns (chosen : Nat → Bool) (source : Bytes) (lexeme other : Lexeme) : Prop :=
  lexeme ∈ scan source ∧ other = lexeme.withReturn chosen

namespace MovedByReturns

variable {chosen : Nat → Bool} {source : Bytes} {lexeme other : Lexeme}
  (chooses : ChoosesLineFeeds chosen 0 (scan source))
include chooses

/-- A token that is moved keeps its text, unless it is a newline. -/
theorem text_eq (moved : MovedByReturns chosen source lexeme other)
    (kind : lexeme.kind ≠ .newline) : lexeme.text = other.text := by
  obtain ⟨mem, rfl⟩ := moved
  exact (text_withReturn_of_ne_newline chooses mem kind).symm

/-- What is moved is read alike. -/
theorem alike (moved : MovedByReturns chosen source lexeme other) : lexeme.Alike other where
  kind := Or.inl (by rw [moved.2, Lexeme.withReturn])
  text literal := moved.text_eq chooses (by simp [literal])

/-- The contents of lexemes that are moved are moved. -/
theorem contents_eq {contents other : Contents}
    (moved : Contents.Alike (MovedByReturns chosen source) contents other) :
    other = contents.withReturns chosen := by
  have entries : List.Forall₂ (· = ·) (contents.entries.map (Entry.withReturns chosen))
      other.entries := by
    rw [List.forall₂_map_left_iff]
    refine moved.entries.imp fun entry other related => ?_
    cases related with
    | intro lexemes literal needed =>
      have text := lexemes.text_eq chooses (by simp [literal])
      obtain ⟨mem, rfl⟩ := lexemes
      rw [Lexeme.entry, Lexeme.entry, ← text]
      rfl
  rw [List.forall₂_eq_eq_eq] at entries
  rw [Contents.withReturns, entries, moved.cpuArch]

/-- Lexemes that are moved are to blame in the same way, except that a newline shows its return. -/
theorem failure_returned {failure other : LinkFailure}
    (moved : LinkFailure.Alike (MovedByReturns chosen source) failure other) :
    failure.Returned chosen source other := by
  cases moved with
  | @unexpected lexeme other related =>
    obtain ⟨mem, rfl⟩ := related
    refine ⟨lexeme, mem, rfl, ?_⟩
    split
    · next taken =>
      obtain ⟨kind, lineFeed, -⟩ :=
        Lexeme.isReplaced_iff.mp ((isReplaced_eq chooses mem).trans taken)
      have type : lexeme.type = .newline := congrArg TokenKind.type kind
      have text : lexeme.text = "\n" := by
        rw [Lexeme.text, lineFeed]
        decide
      have bytes : (lexeme.withReturn chosen).bytes = [Byte.carriageReturn, Byte.lineFeed] := by
        rw [Lexeme.withReturn, if_pos taken, lineFeed]
      have text' : (lexeme.withReturn chosen).text = "\r\n" := by
        rw [Lexeme.text, bytes]
        decide
      rw [Lexeme.unexpected, Lexeme.unexpected, text, text', type]
      exact ⟨rfl, congrArg (LinkFailure.mk · _) (congrArg (Defect.unexpectedToken · _) type)⟩
    · next kept =>
      have bytes : (lexeme.withReturn chosen).bytes = lexeme.bytes := if_neg kept
      rw [Lexeme.unexpected, Lexeme.unexpected, Lexeme.text, bytes]
      rfl
  | @unsupported lexeme other related literal =>
    have text := related.text_eq chooses (by simp [literal])
    obtain ⟨mem, rfl⟩ := related
    refine ⟨lexeme, mem, rfl, ?_⟩
    rw [if_neg (not_chosen_of_ne_newline chooses mem (by simp [literal])), ← text]
    rfl

end MovedByReturns

/-! ## The whole script -/

/-- With longer line breaks a source comes to contents that are moved, or to a failure of the same
lexeme. -/
theorem parse_returned {chosen : Nat → Bool} {source : Bytes}
    (chooses : ChoosesLineFeeds chosen 0 (scan source)) :
    Agree (fun contents other => other = contents.withReturns chosen)
      (fun fault fault' => ∃ failure other, fault = .link failure ∧ fault' = .link other ∧
        failure.Returned chosen source other)
      (parse source) (parse (withReturns chosen 0 source)) := by
  have tokens' := tokenize_withReturns chooses
  cases tokens : tokenize source with
  | error failure =>
    rw [tokens] at tokens'
    obtain ⟨before, lexeme, after, place, invalid, -, rfl⟩ := tokenize_eq_error_iff.mp tokens
    have mem : lexeme ∈ scan source := by simp [place]
    have kept : ¬ chosen lexeme.span.start :=
      not_chosen_of_ne_newline chooses mem (by simp [invalid])
    simp only [parse, tokens, tokens', Except.map]
    refine .error ⟨_, _, rfl, rfl, lexeme, mem, rfl, ?_⟩
    rw [if_neg kept]
  | ok lexemes =>
    rw [tokens] at tokens'
    have moved : List.Forall₂ (MovedByReturns chosen source) lexemes
        (lexemes.map (Lexeme.withReturn chosen)) := by
      rw [List.forall₂_map_right_iff, List.forall₂_same, scan_of_tokenize tokens]
      exact fun lexeme mem => ⟨mem, rfl⟩
    apply (parse_alike (MovedByReturns.alike chooses) tokens tokens' moved).imp
    · exact MovedByReturns.contents_eq chooses
    · rintro _ _ ⟨failure, other, failures, same, same'⟩
      exact ⟨failure, other, same, same', MovedByReturns.failure_returned chooses failures⟩

/-- **The style of line breaks does not matter.**  Let a carriage return be put in front of any line
feeds of a source that are newlines by themselves.  The scan then has the same lexemes, on the same
lines and in the same columns, each further on by the returns before it; only the chosen newlines
have other bytes.  The source tokenizes as before, to these lexemes or to the same failure.

A script that is read still says the same, with the spans of its entries further on.  A script that
is refused is still refused for the same defect at the same place, except that the text of a newline
in the wrong place shows its return. -/
theorem parse_withReturns {chosen : Nat → Bool} {source : Bytes}
    (chooses : ChoosesLineFeeds chosen 0 (scan source)) :
    scan (withReturns chosen 0 source) = (scan source).map (Lexeme.withReturn chosen) ∧
    tokenize (withReturns chosen 0 source) =
      (tokenize source).map (List.map (Lexeme.withReturn chosen)) ∧
    (∀ contents, parse source = .ok contents →
      parse (withReturns chosen 0 source) = .ok (contents.withReturns chosen)) ∧
    ∀ fault, parse source = .error fault → ∃ failure other, fault = .link failure ∧
      parse (withReturns chosen 0 source) = .error (.link other) ∧
      ∃ lexeme ∈ scan source, lexeme.position = failure.position ∧
        if chosen lexeme.span.start then
          failure.defect = .unexpectedToken .newline "\n" ∧
            other = ⟨.unexpectedToken .newline "\r\n", failure.position⟩
        else other = failure := by
  refine ⟨scan_withReturns chooses, tokenize_withReturns chooses, ?_⟩
  have outcomes := parse_returned chooses
  generalize parse source = outcome, parse (withReturns chosen 0 source) = outcome' at outcomes
  cases outcomes with
  | ok same =>
    refine ⟨?_, nofun⟩
    rintro _ ⟨⟩
    rw [same]
  | error failed =>
    obtain ⟨failure, other, rfl, rfl, returned⟩ := failed
    refine ⟨nofun, ?_⟩
    rintro _ ⟨⟩
    exact ⟨failure, other, rfl, rfl, returned⟩

/-- A script whose lines end in different ways, with a line feed inside a comment. -/
def mixedLines : Bytes := Text.Utf8.encode "INPUT(a)\n/*\n*/\r\nGROUP(b)\n"

/-- A format that breaks off behind its first line. -/
def openedBlock : Bytes := Text.Utf8.encode "OUTPUT_FORMAT\n("

/-- The first and the last line of a script get a return, and so does a line that is to blame. -/
theorem parse_withReturns_mixed :
    ChoosesLineFeeds (· ∈ [8, 24]) 0 (scan mixedLines) ∧
    parse (withReturns (· ∈ [8, 24]) 0 mixedLines) =
      .ok ⟨none, [⟨"a", true, ⟨6, 7⟩⟩, ⟨"b", true, ⟨23, 24⟩⟩]⟩ ∧
    ChoosesLineFeeds (· ∈ [13]) 0 (scan openedBlock) ∧
    ∃ lexeme ∈ scan openedBlock, lexeme.position = ⟨0, 13⟩ ∧
      parse (withReturns (· ∈ [13]) 0 openedBlock) =
        .error (.link ⟨.unexpectedToken .newline "\r\n", lexeme.position⟩) := by
  have chooses : ChoosesLineFeeds (· ∈ [8, 24]) 0 (scan mixedLines) := by
    intro place _ taken
    have places : place = 8 ∨ place = 24 := by simpa using taken
    rcases places with rfl | rfl <;> decide +kernel
  have accepted : parse mixedLines =
      .ok ⟨none, [⟨"a", true, ⟨6, 7⟩⟩, ⟨"b", true, ⟨22, 23⟩⟩]⟩ := by decide +kernel
  have chooses' : ChoosesLineFeeds (· ∈ [13]) 0 (scan openedBlock) := by
    intro place _ taken
    obtain rfl : place = 13 := by simpa using taken
    decide +kernel
  have refused : parse openedBlock =
      .error (.link ⟨.unexpectedToken .newline "\n", ⟨0, 13⟩⟩) := by decide +kernel
  refine ⟨chooses, (parse_withReturns chooses).2.2.1 _ accepted, chooses', ?_⟩
  obtain ⟨failure, other, same, refused', lexeme, mem, position, shown⟩ :=
    (parse_withReturns chooses').2.2.2 _ refused
  cases same
  have taken : ∀ lexeme ∈ scan openedBlock, lexeme.position = ⟨0, 13⟩ →
      lexeme.span.start ∈ [13] := by decide +kernel
  rw [if_pos (decide_eq_true (taken lexeme mem position))] at shown
  exact ⟨lexeme, mem, position, by rw [refused', shown.2, position]⟩

end LinkScript
