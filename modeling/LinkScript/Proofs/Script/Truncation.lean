import LinkScript.Proofs.Script.Entries
import LinkScript.Proofs.Token.Shape

/-!
# Reading a script that is cut off

More bytes behind a source change its tokens only at the end.  A token that has bytes behind it
keeps its shape whatever stands further on (`Shape.before_more`); one that the end of the source
closes may turn out to be longer, or to be of another kind.

* `LooseEnd` is the part of a scan that more bytes may change: the `eof`, and before it at most one
  token of free length.
* `scanFrom_append`: up to its loose end, the scan of a source is a part of every scan of the source
  with more behind it.

A script that lost its end is refused, or it names the libraries that the whole script names first.
Wherever the cut falls, all tokens but the last are those of the whole script; and a last token that
the cut may have changed can be read at the end of a script only if it is a comment.

* `Reading.contents_of_looseEnd`: nothing is read off the loose end of an accepted scan.
* `entries_prefix_of_run`: the libraries read so far are the first of those read in the end.
* `entries_prefix_of_parse` says it of two sources.
-/

namespace LinkScript

/-! ## Tokens with more behind them -/

/-- What looks like a token, with bytes behind it, looks the same with more bytes behind those. -/
theorem Shape.before_more {kind : TokenKind} {bytes rest : Bytes} (shape : Shape kind bytes rest)
    (followed : rest ≠ []) (back : Bytes) : Shape kind bytes (rest ++ back) := by
  have head : (rest ++ back).head? = rest.head? := List.head?_append_of_ne_nil rest followed
  have literal : IsLiteral bytes rest → IsLiteral bytes (rest ++ back) := by
    rintro ⟨ne_nil, run, behind⟩
    refine ⟨ne_nil, run, ?_⟩
    rcases behind with nothing | ⟨byte, mem, first⟩ | lineBreak
    · exact absurd nothing followed
    · exact Or.inr (Or.inl ⟨byte, mem, head.trans first⟩)
    · exact Or.inr (Or.inr (lineBreak.trans (List.prefix_append rest back)))
  cases kind with
  | eof => exact absurd shape.2 followed
  | invalid => exact ⟨shape.1, head ▸ shape.2⟩
  | newline | lparen | rparen | lbrace | rbrace => exact shape
  | comment =>
    obtain ⟨opens, closed | ⟨nothing, -⟩⟩ := shape
    · exact ⟨opens, Or.inl closed⟩
    · exact absurd nothing followed
  | command keyword => exact ⟨literal shape.1, shape.2⟩
  | literal => exact ⟨literal shape.1, shape.2⟩

/-- The types of tokens whose length is not fixed by their first bytes. -/
def TokenKind.IsFree (kind : TokenKind) : Prop :=
  kind.type ∈ [.comment, .literal, .command, .invalid]

/-- A token of fixed length looks the same whatever stands behind it. -/
theorem Shape.of_not_isFree {kind : TokenKind} {bytes rest : Bytes} (shape : Shape kind bytes rest)
    (inner : kind ≠ .eof) (fixed : ¬ kind.IsFree) (rest' : Bytes) : Shape kind bytes rest' := by
  cases kind with
  | eof => exact absurd rfl inner
  | newline | lparen | rparen | lbrace | rbrace => exact shape
  | invalid | comment | command _ | literal => simp [TokenKind.IsFree, TokenKind.type] at fixed

/-! ## The scan -/

/-- The end of a scan that more bytes may change. -/
inductive LooseEnd : List Lexeme → Prop where
  /-- The end of the source closes no token. -/
  | eof {eof : Lexeme} : eof.kind = .eof → LooseEnd [eof]
  /-- The last token may have been closed by the end of the source. -/
  | token {last eof : Lexeme} : last.kind.IsFree → eof.kind = .eof → LooseEnd [last, eof]

/-- **A scan is kept up to its loose end**, whatever stands behind its source. -/
theorem scanFrom_append (mark : Mark) (front back : Bytes) :
    ∃ body loose rest, scanFrom mark front = body ++ loose ∧ LooseEnd loose ∧
      scanFrom mark (front ++ back) = body ++ rest := by
  fun_induction scanFrom mark front with
  | case1 mark front cut lexeme eof => exact ⟨[], [lexeme], _, rfl, .eof eof, rfl⟩
  | case2 mark front cut lexeme other ih =>
    have whole : cut.gap ++ cut.bytes ++ cut.rest = front := Token.next_append front
    have looks : Shape cut.kind cut.bytes cut.rest := Token.shape_next front
    by_cases loose : cut.rest = [] ∧ cut.kind.IsFree
    · -- nothing but an `eof` is left behind this token
      obtain ⟨eof, alone, last⟩ := scanFrom_nil (mark.past lexeme.kind lexeme.span.stop)
      rw [loose.1, alone]
      exact ⟨[], [lexeme, eof], _, rfl, .token loose.2 last, rfl⟩
    · have kept : Shape cut.kind cut.bytes (cut.rest ++ back) := by
        by_cases nothing : cut.rest = []
        · exact looks.of_not_isFree other (fun free => loose ⟨nothing, free⟩) _
        · exact looks.before_more nothing back
      have blank : ∀ byte ∈ cut.gap, Byte.isBlank byte := fun _ => Token.isBlank_of_mem_gap
      have next := Token.next_of_shape blank kept
      rw [← List.append_assoc, whole] at next
      obtain ⟨body, loose, rest, short, isLoose, long⟩ := ih
      refine ⟨lexeme :: body, loose, rest, ?_, isLoose, ?_⟩
      · rw [short, List.cons_append]
      · rw [scanFrom_of_next next other, List.cons_append]
        exact congrArg (lexeme :: ·) long

/-! ## What is read before the end -/

/-- Of the tokens of free length only a comment leads between directives. -/
theorem Phase.eq_top_of_free {phase : Phase} {last : Lexeme} (free : last.kind.IsFree)
    (leads : phase.next last = some .top) : phase = .top := by
  cases next_eq_some_iff.mp leads <;> simp_all [TokenKind.IsFree, TokenKind.type]

namespace Reading

variable {reading after : Reading}

/-- **Nothing is read off a loose end.** -/
theorem contents_of_looseEnd {loose : List Lexeme} (isLoose : LooseEnd loose)
    (run : reading.run loose = .ok after) : after.toContents = reading.toContents := by
  cases isLoose with
  | eof kind =>
    obtain ⟨last, step, same⟩ := run_cons_eq_ok_iff.mp run
    cases same
    have top := Phase.eq_top_of_next_eof kind (step_eq_ok_iff.mp step).1
    exact contents_of_top top step
  | token free kind =>
    obtain ⟨middle, first, run⟩ := run_cons_eq_ok_iff.mp run
    obtain ⟨last, second, same⟩ := run_cons_eq_ok_iff.mp run
    cases same
    have ended := Phase.eq_top_of_next_eof kind (step_eq_ok_iff.mp second).1
    have leads := (step_eq_ok_iff.mp first).1
    rw [ended] at leads
    have top := Phase.eq_top_of_free free leads
    rw [contents_of_top ended second, contents_of_top top first]

end Reading

/-- The libraries that have been read stay the first ones. -/
theorem entries_prefix_of_run {reading after : Reading} {lexemes : List Lexeme}
    (run : reading.run lexemes = .ok after) : reading.entries <+: after.entries :=
  ⟨_, (Reading.entries_of_run run).symm⟩

/-- **A script that is cut off names no other libraries.**  If a source and a source that begins
with it are both accepted, then the entries of the shorter one, with their paths, whether they are
needed and their spans, are the first entries of the longer one. -/
theorem entries_prefix_of_parse {front source : Bytes} {early late : Contents}
    (cut : front <+: source) (accepted : parse front = .ok early)
    (whole : parse source = .ok late) : early.entries <+: late.entries := by
  obtain ⟨back, rfl⟩ := cut
  obtain ⟨lexemes, short, tokens, run, -, rfl⟩ := run_of_parse accepted
  obtain rfl := scan_of_tokenize tokens
  obtain ⟨lexemes, long, tokens', run', -, rfl⟩ := run_of_parse whole
  obtain rfl := scan_of_tokenize tokens'
  obtain ⟨body, loose, rest, scanned, isLoose, scanned'⟩ :=
    scanFrom_append Mark.origin front back
  rw [scan, scanned] at run
  rw [scan, scanned'] at run'
  obtain ⟨middle, read, ending⟩ := Reading.run_append_eq_ok_iff.mp run
  obtain ⟨middle', read', further⟩ := Reading.run_append_eq_ok_iff.mp run'
  -- both runs stand at the same point behind the tokens they share
  obtain rfl := Except.ok.inj (read.symm.trans read')
  rw [Reading.contents_of_looseEnd isLoose ending]
  exact entries_prefix_of_run further

/-- A script with two groups, the second one behind a comment. -/
def groupsScript : Bytes := Text.Utf8.encode "GROUP(a AS_NEEDED(b))/* c */INPUT(d)"

/-- Cut off inside the comment, a script still names the libraries before it. -/
theorem entries_prefix_of_parse_comment :
    groupsScript.take 24 <+: groupsScript ∧
    parse (groupsScript.take 24) =
      .ok ⟨none, [⟨"a", true, ⟨6, 7⟩⟩, ⟨"b", false, ⟨18, 19⟩⟩]⟩ ∧
    parse groupsScript =
      .ok ⟨none, [⟨"a", true, ⟨6, 7⟩⟩, ⟨"b", false, ⟨18, 19⟩⟩, ⟨"d", true, ⟨34, 35⟩⟩]⟩ ∧
    [(⟨"a", true, ⟨6, 7⟩⟩ : Entry), ⟨"b", false, ⟨18, 19⟩⟩] <+:
      [⟨"a", true, ⟨6, 7⟩⟩, ⟨"b", false, ⟨18, 19⟩⟩, ⟨"d", true, ⟨34, 35⟩⟩] := by
  have cut : groupsScript.take 24 <+: groupsScript := List.take_prefix 24 groupsScript
  have accepted : parse (groupsScript.take 24) =
      .ok ⟨none, [⟨"a", true, ⟨6, 7⟩⟩, ⟨"b", false, ⟨18, 19⟩⟩]⟩ := by
    decide +kernel
  have whole : parse groupsScript =
      .ok ⟨none, [⟨"a", true, ⟨6, 7⟩⟩, ⟨"b", false, ⟨18, 19⟩⟩, ⟨"d", true, ⟨34, 35⟩⟩]⟩ := by
    decide +kernel
  exact ⟨cut, accepted, whole, entries_prefix_of_parse cut accepted whole⟩

end LinkScript
