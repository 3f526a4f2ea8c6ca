import LinkScript.Proofs.Script.Entries
import LinkScript.Proofs.Script.Refusal
import LinkScript.Proofs.Token.Join

/-!
# Reading one script behind another

An accepted script with a line feed and another script behind it is read as the two are read by
themselves: the libraries of both in order, the later architecture if there is one, and the failure
of the second script so many lines further on.

* `Contents.behind` are contents that were read behind others, and `LinkFailure.lower` is a failure
  that came about behind other lines.
* `Phase.next_shift`, `Phase.effect_shift` and `Reading.step_shift`: a step does to a lexeme further
  on what it does to the lexeme.  `Reading.run_shift` repeats this over a list.
* `Reading.run_join`: a run over a join is the run over its second part, behind the contents of the
  first.
* `parse_join_eq` is the parser on a join, and `parse_join` spells it out.
-/

namespace LinkScript

/-! ## Contents and failures further on -/

/-- The entry with bytes put in front of its source. -/
def Entry.shift (entry : Entry) (bytes : Nat) : Entry :=
  { entry with span := entry.span.shift bytes }

/-- Contents that were read behind others, which took so many bytes. -/
def Contents.behind (contents before : Contents) (bytes : Nat) : Contents :=
  ⟨contents.cpuArch.or before.cpuArch, before.entries ++ contents.entries.map (·.shift bytes)⟩

/-- The failure with lines put in front of its source. -/
def LinkFailure.lower (failure : LinkFailure) (lines : Nat) : LinkFailure :=
  { failure with position := failure.position.lower lines }

/-- The phase with the lexemes that it keeps shifted. -/
def Phase.shift (phase : Phase) (bytes lines : Nat) : Phase :=
  match phase with
  | .formatRead operand => .formatRead (operand.shift bytes lines)
  | .block newline => .block (newline.shift bytes lines)
  | .blockRead operand => .blockRead (operand.shift bytes lines)
  | .blockLastLine operand => .blockLastLine (operand.shift bytes lines)
  | phase => phase

/-- A reading that goes on behind other contents, which took so many bytes and lines. -/
def Reading.behind (reading : Reading) (before : Contents) (bytes lines : Nat) : Reading where
  toContents := reading.toContents.behind before bytes
  phase := reading.phase.shift bytes lines

/-! ## Steps -/

section

variable (bytes lines : Nat) (before contents : Contents) (lexeme operand : Lexeme)

namespace Contents

/-- A format further on selects the same architecture, or fails further on. -/
theorem select_shift :
    (contents.behind before bytes).select (operand.shift bytes lines) =
      ((contents.select operand).map (·.behind before bytes)).mapError (·.lower lines) := by
  unfold select
  rw [Lexeme.text_shift]
  cases CpuArch.ofOutputFormat? operand.text with
  | none => rfl
  | some arch => rfl

/-- A library further on is added further on. -/
theorem add_shift (needed : Bool) :
    (contents.behind before bytes).add (lexeme.shift bytes lines) needed =
      (contents.add lexeme needed).behind before bytes := by
  simp [add, behind, Lexeme.entry, Entry.shift, List.append_assoc]

end Contents

namespace Phase

variable (phase : Phase)

/-- A lexeme further on leads to the same phase. -/
theorem next_shift :
    (phase.shift bytes lines).next (lexeme.shift bytes lines) =
      (phase.next lexeme).map (·.shift bytes lines) := by
  cases phase with
  | done => rfl
  | _ =>
    simp only [shift, next, Lexeme.kind_shift]
    split <;> simp [*]

/-- The same lexeme is blamed. -/
theorem blamed_shift :
    (phase.shift bytes lines).blamed (lexeme.shift bytes lines) =
      (phase.blamed lexeme).shift bytes lines := by
  cases phase <;> rfl

/-- The same format is selected. -/
theorem selected?_shift :
    (phase.shift bytes lines).selected? (lexeme.shift bytes lines) =
      (phase.selected? lexeme).map (·.shift bytes lines) := by
  cases phase with
  | blockRead operand => by_cases kind : lexeme.kind = .rbrace <;> simp [shift, selected?, kind]
  | _ => rfl

/-- The same libraries are needed. -/
theorem needed?_shift :
    (phase.shift bytes lines).needed? (lexeme.shift bytes lines) = phase.needed? lexeme := by
  cases phase <;> rfl

/-- A lexeme further on adds the same to the contents. -/
theorem effect_shift :
    (phase.shift bytes lines).effect (lexeme.shift bytes lines) (contents.behind before bytes) =
      ((phase.effect lexeme contents).map (·.behind before bytes)).mapError (·.lower lines) := by
  have selects := phase.selected?_shift bytes lines lexeme
  have needs := phase.needed?_shift bytes lines lexeme
  cases selected : phase.selected? lexeme with
  | some operand =>
    rw [selected, Option.map_some] at selects
    rw [effect_of_selected selects, effect_of_selected selected, Contents.select_shift]
  | none =>
    rw [selected, Option.map_none] at selects
    cases names : phase.needed? lexeme with
    | some needed =>
      rw [names] at needs
      rw [effect_of_needed selects needs, effect_of_needed selected names, Contents.add_shift]
      rfl
    | none =>
      rw [names] at needs
      rw [effect_of_none selects needs, effect_of_none selected names]
      rfl

end Phase

namespace Reading

variable (reading : Reading)

/-- A step over a lexeme further on is the step over the lexeme, behind the same contents. -/
theorem step_shift :
    (reading.behind before bytes lines).step (lexeme.shift bytes lines) =
      ((reading.step lexeme).map (·.behind before bytes lines)).mapError (·.lower lines) := by
  have leads := reading.phase.next_shift bytes lines lexeme
  cases following : reading.phase.next lexeme with
  | none =>
    rw [following, Option.map_none] at leads
    have blamed := reading.phase.blamed_shift bytes lines lexeme
    rw [step_of_next_none following, step_of_next_none leads]
    show Except.error ((reading.phase.shift bytes lines).blamed _).unexpected = _
    rw [blamed]
    rfl
  | some phase =>
    rw [following, Option.map_some] at leads
    have effect := reading.phase.effect_shift bytes lines before reading.toContents lexeme
    simp only [step, behind, leads, following, effect]
    cases reading.phase.effect lexeme reading.toContents with
    | error failure => rfl
    | ok contents => rfl

/-- **A run over lexemes further on** is the run over the lexemes, behind the same contents. -/
theorem run_shift (lexemes : List Lexeme) :
    (reading.behind before bytes lines).run (lexemes.map (·.shift bytes lines)) =
      ((reading.run lexemes).map (·.behind before bytes lines)).mapError (·.lower lines) := by
  induction lexemes generalizing reading with
  | nil => rfl
  | cons lexeme rest ih =>
    have step := reading.step_shift bytes lines before lexeme
    rw [List.map_cons]
    cases here : reading.step lexeme with
    | error failure =>
      rw [here] at step
      rw [run_cons_of_error step, run_cons_of_error here]
      rfl
    | ok next =>
      rw [here] at step
      rw [run_cons_of_step step, run_cons_of_step here]
      exact ih next

end Reading

end

/-! ## The join -/

/-- The failure of a parse with lines put in front of its source. -/
def ParseFault.lower (fault : ParseFault) (lines : Nat) : ParseFault :=
  match fault with
  | .link failure => .link (failure.lower lines)
  | .outOfBounds fault => .outOfBounds fault

/-- Before an `eof` that is read, a run stands between directives, with the same contents. -/
theorem Reading.run_of_eof {body : List Lexeme} {eof : Lexeme} {after : Reading}
    (run : Reading.run {} (body ++ [eof]) = .ok after) (kind : eof.kind = .eof) :
    Reading.run {} body = .ok { toContents := after.toContents, phase := .top } := by
  obtain ⟨middle, front, run⟩ := run_append_eq_ok_iff.mp run
  obtain ⟨last, step, same⟩ := run_cons_eq_ok_iff.mp run
  cases same
  have top := Phase.eq_top_of_next_eof kind (step_eq_ok_iff.mp step).1
  rw [front, contents_of_top top step, ← top]

/-- **A run over a join**: with a newline in the place of the `eof`, what comes further on is read
as by itself, behind the contents read before it. -/
theorem Reading.run_join {body : List Lexeme} {eof newline : Lexeme} {after : Reading}
    (run : Reading.run {} (body ++ [eof]) = .ok after) (last : eof.kind = .eof)
    (feed : newline.kind = .newline) (bytes lines : Nat) (lexemes : List Lexeme) :
    Reading.run {} (body ++ newline :: lexemes.map (·.shift bytes lines)) =
      ((Reading.run {} lexemes).map (·.behind after.toContents bytes lines)).mapError
        (·.lower lines) := by
  have step : Reading.step { toContents := after.toContents, phase := .top } newline =
      .ok { toContents := after.toContents, phase := .top } := by
    refine step_eq_ok_iff.mpr ⟨?_, rfl⟩
    simp [Phase.next, feed]
  have start : ({ toContents := after.toContents, phase := .top } : Reading) =
      Reading.behind {} after.toContents bytes lines := by
    simp [behind, Contents.behind, Phase.shift]
  rw [run_append, run_of_eof run last]
  show Reading.run _ _ = _
  rw [run_cons_of_step step, start, run_shift]

/-- What a source tokenizes to whose scan is that of another one, behind valid lexemes and a
newline. -/
theorem tokenize_join {source back : Bytes} {body : List Lexeme} {newline : Lexeme}
    {bytes lines : Nat} (valid : ∀ lexeme ∈ body, lexeme.kind ≠ .invalid)
    (feed : newline.kind = .newline)
    (join : scan source = body ++ newline :: (scan back).map (·.shift bytes lines)) :
    tokenize source = ((tokenize back).map fun lexemes =>
      body ++ newline :: lexemes.map (·.shift bytes lines)).mapError (·.lower lines) := by
  have none : body.find? (·.kind == .invalid) = none := by
    rw [List.find?_eq_none]
    intro lexeme mem
    simpa using valid lexeme mem
  have first : (scan source).find? (·.kind == .invalid) =
      ((scan back).find? (·.kind == .invalid)).map (·.shift bytes lines) := by
    rw [join, List.find?_append, none, Option.none_or, List.find?_cons, feed, List.find?_map]
    rfl
  unfold tokenize
  dsimp only
  rw [first]
  cases (scan back).find? (·.kind == .invalid) with
  | none =>
    show Except.ok (scan source) = Except.ok _
    rw [join]
  | some lexeme => rfl

/-- **The parser on a join.**  A script behind an accepted one is parsed as it is by itself, behind
the contents of the other and so many bytes and lines further on. -/
theorem parse_join_eq {front : Bytes} {contents : Contents} (accepted : parse front = .ok contents)
    (closed : ∀ comment ∈ ((scan front).filter (·.kind = .comment)).getLast?, ¬ comment.CutOff)
    (back : Bytes) :
    parse (front ++ Byte.lineFeed :: back) =
      ((parse back).map (·.behind contents (front.length + 1))).mapError
        (·.lower ((scan front).countP (·.kind = .newline) + 1)) := by
  obtain ⟨lexemes, after, tokens, run, -, rfl⟩ := run_of_parse accepted
  obtain rfl := scan_of_tokenize tokens
  have valid : ∀ lexeme ∈ scan front, lexeme.kind ≠ .invalid := by
    intro lexeme mem
    exact kind_ne_invalid_of_tokenize tokens mem
  obtain ⟨body, eof, newline, whole, last, feed, join⟩ :=
    scan_join valid (not_cutOff_of_last closed) back
  generalize (scan front).countP (·.kind = .newline) + 1 = lines at join ⊢
  generalize front.length + 1 = bytes at join ⊢
  rw [whole] at run valid
  have tokenized :=
    tokenize_join (fun lexeme mem => valid lexeme (List.mem_append_left _ mem)) feed join
  cases behind : tokenize back with
  | error failure =>
    rw [behind] at tokenized
    simp only [parse, behind, tokenized, Except.map, Except.mapError]
    rfl
  | ok lexemes =>
    rw [behind] at tokenized
    rw [parse_of_tokenize behind, parse_of_tokenize tokenized, Reading.run_join run last feed]
    cases Reading.run {} lexemes with
    | error failure => rfl
    | ok finish => rfl

/-- **Scripts behind each other** are read one after the other, for success and for failure.

Let a script be accepted whose last comment, if it has one, is closed.  If another script is
accepted, then with a line feed between them the two are accepted; the later architecture counts if
there is one, and the libraries of the second script follow those of the first, further on by the
bytes before them.  If the other script is refused, the two are refused for the same defect, further
down by the lines before it, in the same column. -/
theorem parse_join {front : Bytes} {contents : Contents} (accepted : parse front = .ok contents)
    (closed : ∀ comment ∈ ((scan front).filter (·.kind = .comment)).getLast?, ¬ comment.CutOff)
    (back : Bytes) :
    (∀ after, parse back = .ok after →
      parse (front ++ Byte.lineFeed :: back) = .ok
        ⟨after.cpuArch.or contents.cpuArch,
          contents.entries ++ after.entries.map (·.shift (front.length + 1))⟩) ∧
    ∀ fault, parse back = .error fault → ∃ defect line column,
      fault = .link ⟨defect, ⟨line, column⟩⟩ ∧
      parse (front ++ Byte.lineFeed :: back) = .error (.link ⟨defect,
        ⟨line + (scan front).countP (·.kind = .newline) + 1, column⟩⟩) := by
  have join := parse_join_eq accepted closed back
  constructor
  · intro after accepted
    rw [join, accepted]
    rfl
  · intro fault refused
    obtain ⟨⟨defect, line, column⟩, rfl⟩ := exists_failure_of_parse refused
    refine ⟨defect, line, column, rfl, ?_⟩
    rw [join, refused]
    simp only [Except.map, Except.mapError, ParseFault.lower, LinkFailure.lower, Position.lower,
      Int.natCast_add, Int.natCast_one, Int.add_assoc]

/-- A script with a comment over two lines, and one at its end. -/
def commentedScript : Bytes :=
  Text.Utf8.encode "OUTPUT_FORMAT(elf64-x86-64) /* a\n */\nGROUP(a) /**/"

/-- A script whose second line is no directive. -/
def strayScript : Bytes := Text.Utf8.encode "INPUT(b)\n  c"

/-- A stray literal behind a script with comments is blamed on its own line and column, below the
lines of that script. -/
theorem parse_join_commented :
    parse commentedScript = .ok ⟨some .x86_64, [⟨"a", true, ⟨43, 44⟩⟩]⟩ ∧
    (∀ comment ∈ ((scan commentedScript).filter (·.kind = .comment)).getLast?,
      ¬ comment.CutOff) ∧
    parse strayScript = .error (.link ⟨.unexpectedToken .literal "c", ⟨1, 2⟩⟩) ∧
    (∀ after, parse strayScript = .ok after →
      parse (commentedScript ++ Byte.lineFeed :: strayScript) = .ok
        ⟨after.cpuArch.or (some .x86_64),
          [⟨"a", true, ⟨43, 44⟩⟩] ++ after.entries.map (·.shift (commentedScript.length + 1))⟩) ∧
    ∀ fault, parse strayScript = .error fault → ∃ defect line column,
      fault = .link ⟨defect, ⟨line, column⟩⟩ ∧
      parse (commentedScript ++ Byte.lineFeed :: strayScript) = .error (.link ⟨defect,
        ⟨line + (scan commentedScript).countP (·.kind = .newline) + 1, column⟩⟩) := by
  have accepted : parse commentedScript = .ok ⟨some .x86_64, [⟨"a", true, ⟨43, 44⟩⟩]⟩ := by
    decide +kernel
  have closed : ∀ comment ∈ ((scan commentedScript).filter (·.kind = .comment)).getLast?,
      ¬ comment.CutOff := by
    decide +kernel
  exact ⟨accepted, closed, by decide +kernel, parse_join accepted closed strayScript⟩

end LinkScript
