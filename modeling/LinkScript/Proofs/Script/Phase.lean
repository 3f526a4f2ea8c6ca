import LinkScript.Proofs.Script.Ahead
import LinkScript.Script.Parser

/-!
# Reading a script one lexeme at a time

The productions of `Script/Parser` call each other, look ahead and go back.  This file holds the
same reading as a machine without a stack: nesting is at most two deep, so thirteen phases are
enough to say where in the grammar a reading stands.

* `Phase` is such a point of the grammar.  A phase inside a format keeps the lexeme that a later
  failure may have to blame.
* `Phase.next` is the phase behind a lexeme, if the grammar has one there.
* `Phase.effect` is what a lexeme adds to the contents: the library that it names inside a group
  (`Phase.needed?`), or the architecture of the format that it closes (`Phase.selected?`).
* `Reading.step` puts the two together, and `Reading.run` repeats it over a list.

`Proofs/Script/Reading` shows that the parser does nothing else.
-/

namespace LinkScript

/-! ## Where a reading stands -/

/-- A point of the grammar between two lexemes. -/
inductive Phase where
  /-- Between directives. -/
  | top
  /-- Behind `OUTPUT_FORMAT`. -/
  | format
  /-- Behind the parenthesis that opens a format. -/
  | formatOpen
  /-- Behind a format in parentheses. -/
  | formatRead (operand : Lexeme)
  /-- Behind `OUTPUT_FORMAT` and a newline. -/
  | block (newline : Lexeme)
  /-- Behind the brace that opens a format. -/
  | blockOpen
  /-- Behind a format in braces. -/
  | blockRead (operand : Lexeme)
  /-- Behind a format in braces and a newline. -/
  | blockLastLine (operand : Lexeme)
  /-- Behind `INPUT` or `GROUP`. -/
  | group
  /-- Inside a group. -/
  | items
  /-- Behind `AS_NEEDED`. -/
  | asNeeded
  /-- Inside an `AS_NEEDED` list. -/
  | names
  /-- Behind the end. -/
  | done
  deriving DecidableEq

namespace Phase

/-- The phase behind a lexeme. -/
def next (phase : Phase) (lexeme : Lexeme) : Option Phase :=
  match phase with
  | .top =>
    match lexeme.kind with
    | .comment | .newline => some .top
    | .command .outputFormat => some .format
    | .command .input | .command .group => some .group
    | .eof => some .done
    | _ => none
  | .format =>
    match lexeme.kind with
    | .lparen => some .formatOpen
    | .newline => some (.block lexeme)
    | _ => none
  | .formatOpen => if lexeme.kind = .literal then some (.formatRead lexeme) else none
  | .formatRead _ => if lexeme.kind = .rparen then some .top else none
  | .block _ => if lexeme.kind = .lbrace then some .blockOpen else none
  | .blockOpen => if lexeme.kind = .literal then some (.blockRead lexeme) else none
  | .blockRead operand =>
    match lexeme.kind with
    | .newline => some (.blockLastLine operand)
    | .rbrace => some .top
    | _ => none
  | .blockLastLine _ => if lexeme.kind = .rbrace then some .top else none
  | .group => if lexeme.kind = .lparen then some .items else none
  | .items =>
    match lexeme.kind with
    | .literal => some .items
    | .command .asNeeded => some .asNeeded
    | .rparen => some .top
    | _ => none
  | .asNeeded => if lexeme.kind = .lparen then some .names else none
  | .names =>
    match lexeme.kind with
    | .literal => some .names
    | .rparen => some .items
    | _ => none
  | .done => none

/-- Every way from one phase to another, with the kind of lexeme that leads there. -/
inductive Leads : Phase → Lexeme → Phase → Prop where
  | between {lexeme : Lexeme} : lexeme.kind = .comment ∨ lexeme.kind = .newline →
      Leads .top lexeme .top
  | outputFormat {lexeme : Lexeme} : lexeme.kind = .command .outputFormat →
      Leads .top lexeme .format
  | group {lexeme : Lexeme} : lexeme.kind = .command .input ∨ lexeme.kind = .command .group →
      Leads .top lexeme .group
  | eof {lexeme : Lexeme} : lexeme.kind = .eof → Leads .top lexeme .done
  | openFormat {lexeme : Lexeme} : lexeme.kind = .lparen → Leads .format lexeme .formatOpen
  | readFormat {lexeme : Lexeme} : lexeme.kind = .literal →
      Leads .formatOpen lexeme (.formatRead lexeme)
  | closeFormat {operand lexeme : Lexeme} : lexeme.kind = .rparen →
      Leads (.formatRead operand) lexeme .top
  | firstLine {lexeme : Lexeme} : lexeme.kind = .newline → Leads .format lexeme (.block lexeme)
  | openBlock {newline lexeme : Lexeme} : lexeme.kind = .lbrace →
      Leads (.block newline) lexeme .blockOpen
  | readBlock {lexeme : Lexeme} : lexeme.kind = .literal →
      Leads .blockOpen lexeme (.blockRead lexeme)
  | lastLine {operand lexeme : Lexeme} : lexeme.kind = .newline →
      Leads (.blockRead operand) lexeme (.blockLastLine operand)
  | closeBlock {operand lexeme : Lexeme} : lexeme.kind = .rbrace →
      Leads (.blockRead operand) lexeme .top
  | closeBlockLines {operand lexeme : Lexeme} : lexeme.kind = .rbrace →
      Leads (.blockLastLine operand) lexeme .top
  | openGroup {lexeme : Lexeme} : lexeme.kind = .lparen → Leads .group lexeme .items
  | item {lexeme : Lexeme} : lexeme.kind = .literal → Leads .items lexeme .items
  | asNeeded {lexeme : Lexeme} : lexeme.kind = .command .asNeeded → Leads .items lexeme .asNeeded
  | closeGroup {lexeme : Lexeme} : lexeme.kind = .rparen → Leads .items lexeme .top
  | openNames {lexeme : Lexeme} : lexeme.kind = .lparen → Leads .asNeeded lexeme .names
  | name {lexeme : Lexeme} : lexeme.kind = .literal → Leads .names lexeme .names
  | closeNames {lexeme : Lexeme} : lexeme.kind = .rparen → Leads .names lexeme .items

/-- A lexeme leads to the phase behind it, and to no other. -/
theorem next_eq_some_iff {phase following : Phase} {lexeme : Lexeme} :
    phase.next lexeme = some following ↔ Leads phase lexeme following := by
  constructor
  · intro h
    unfold next at h
    repeat' split at h
    all_goals simp only [Option.some.injEq, reduceCtorEq] at h
    all_goals subst h; constructor; simp [*]
  · intro h
    cases h with
    | between kind => rcases kind with kind | kind <;> simp [next, kind]
    | group kind => rcases kind with kind | kind <;> simp [next, kind]
    | _ kind => simp [next, kind]

/-- Only between directives can an `eof` be read. -/
theorem eq_top_of_next_eof {phase following : Phase} {eof : Lexeme} (kind : eof.kind = .eof)
    (leads : phase.next eof = some following) : phase = .top := by
  cases next_eq_some_iff.mp leads <;> simp_all

/-- The lexeme to blame where no phase follows: the one that stands there, except that the first
line of a block without its brace is blamed itself. -/
def blamed (phase : Phase) (lexeme : Lexeme) : Lexeme :=
  match phase with
  | .block newline => newline
  | _ => lexeme

/-- The format that a lexeme selects by closing its bracket. -/
def selected? (phase : Phase) (lexeme : Lexeme) : Option Lexeme :=
  match phase with
  | .formatRead operand | .blockLastLine operand => some operand
  | .blockRead operand => if lexeme.kind = .rbrace then some operand else none
  | _ => none

/-- Whether the library that a lexeme names is needed, if the lexeme names one. -/
def needed? (phase : Phase) (lexeme : Lexeme) : Option Bool :=
  match phase with
  | .items => if lexeme.kind = .literal then some true else none
  | .names => if lexeme.kind = .literal then some false else none
  | _ => none

end Phase

/-! ## What is read -/

/-- The entry for a library that a lexeme names. -/
def Lexeme.entry (lexeme : Lexeme) (needed : Bool) : Entry :=
  ⟨lexeme.text, needed, lexeme.span⟩

namespace Contents

/-- The contents with one more library. -/
def add (contents : Contents) (lexeme : Lexeme) (needed : Bool) : Contents :=
  { contents with entries := contents.entries ++ [lexeme.entry needed] }

/-- The contents with the architecture that a format operand names. -/
def select (contents : Contents) (operand : Lexeme) : Except LinkFailure Contents :=
  match CpuArch.ofOutputFormat? operand.text with
  | some arch => .ok { contents with cpuArch := some arch }
  | none => .error ⟨.unknownCpuArch operand.text, operand.position⟩

end Contents

/-- What a lexeme adds to the contents. -/
def Phase.effect (phase : Phase) (lexeme : Lexeme) (contents : Contents) :
    Except LinkFailure Contents :=
  match phase.selected? lexeme with
  | some operand => contents.select operand
  | none =>
    match phase.needed? lexeme with
    | some needed => .ok (contents.add lexeme needed)
    | none => .ok contents

namespace Phase

variable {phase : Phase} {lexeme : Lexeme} {contents : Contents}

/-- A lexeme that closes a format selects it. -/
theorem effect_of_selected {operand : Lexeme} (h : phase.selected? lexeme = some operand) :
    phase.effect lexeme contents = contents.select operand := by
  simp only [effect, h]

/-- A lexeme that names a library adds it. -/
theorem effect_of_needed {needed : Bool} (h : phase.selected? lexeme = none)
    (names : phase.needed? lexeme = some needed) :
    phase.effect lexeme contents = .ok (contents.add lexeme needed) := by
  simp only [effect, h, names]

/-- Any other lexeme adds nothing. -/
theorem effect_of_none (h : phase.selected? lexeme = none) (names : phase.needed? lexeme = none) :
    phase.effect lexeme contents = .ok contents := by
  simp only [effect, h, names]

/-- Only literals name libraries. -/
theorem needed?_of_ne_literal (kind : lexeme.kind ≠ .literal) : phase.needed? lexeme = none := by
  cases phase <;> simp [needed?, kind]

/-- A lexeme that selects no format and is no literal adds nothing. -/
theorem effect_of_other (h : phase.selected? lexeme = none) (kind : lexeme.kind ≠ .literal) :
    phase.effect lexeme contents = .ok contents :=
  effect_of_none h (needed?_of_ne_literal kind)

/-- The lexeme that closes a format names no library. -/
theorem needed?_of_selected {operand : Lexeme} (h : phase.selected? lexeme = some operand) :
    phase.needed? lexeme = none := by
  cases phase <;> simp_all [selected?, needed?]

/-- Every effect that succeeds: an architecture is selected, a library is added, or nothing. -/
theorem effect_cases {after : Contents} (h : phase.effect lexeme contents = .ok after) :
    (∃ operand arch, phase.selected? lexeme = some operand ∧ phase.needed? lexeme = none ∧
      CpuArch.ofOutputFormat? operand.text = some arch ∧
      after = { contents with cpuArch := some arch }) ∨
    (∃ needed, phase.selected? lexeme = none ∧ phase.needed? lexeme = some needed ∧
      after = contents.add lexeme needed) ∨
    phase.selected? lexeme = none ∧ phase.needed? lexeme = none ∧ after = contents := by
  cases selected : phase.selected? lexeme with
  | some operand =>
    rw [effect_of_selected selected, Contents.select] at h
    split at h
    · next arch found =>
      cases h
      exact Or.inl ⟨operand, arch, rfl, needed?_of_selected selected, found, rfl⟩
    · cases h
  | none =>
    cases names : phase.needed? lexeme with
    | some needed =>
      rw [effect_of_needed selected names] at h
      cases h
      exact Or.inr (Or.inl ⟨needed, rfl, rfl, rfl⟩)
    | none =>
      rw [effect_of_none selected names] at h
      cases h
      exact Or.inr (Or.inr ⟨rfl, rfl, rfl⟩)

end Phase

/-- The contents read so far, and the point of the grammar that has been reached. -/
structure Reading extends Contents where
  phase : Phase := .top
  deriving DecidableEq

namespace Reading

/-- The reading behind one more lexeme. -/
def step (reading : Reading) (lexeme : Lexeme) : Except LinkFailure Reading :=
  match reading.phase.next lexeme with
  | none => .error (reading.phase.blamed lexeme).unexpected
  | some phase => (reading.phase.effect lexeme reading.toContents).map fun contents =>
      { toContents := contents, phase := phase }

/-- The reading behind a list of lexemes. -/
def run (reading : Reading) (lexemes : List Lexeme) : Except LinkFailure Reading :=
  lexemes.foldlM step reading

/-- Over no lexemes a reading stays as it is. -/
@[simp] theorem run_nil (reading : Reading) : reading.run [] = .ok reading := rfl

/-- A run goes lexeme by lexeme. -/
theorem run_cons (reading : Reading) (lexeme : Lexeme) (rest : List Lexeme) :
    reading.run (lexeme :: rest) = reading.step lexeme >>= fun next => next.run rest := by
  simp only [run, List.foldlM_cons]

/-- A run over two lists is one run behind the other. -/
theorem run_append (reading : Reading) (front back : List Lexeme) :
    reading.run (front ++ back) = reading.run front >>= fun next => next.run back := by
  simp only [run, List.foldlM_append]

variable {reading after : Reading} {lexeme : Lexeme} {rest : List Lexeme}

/-- A run whose first step succeeds goes on behind it. -/
theorem run_cons_of_step (h : reading.step lexeme = .ok after) :
    reading.run (lexeme :: rest) = after.run rest := by
  rw [run_cons, h]
  rfl

/-- A run whose first step fails is over. -/
theorem run_cons_of_error {failure : LinkFailure} (h : reading.step lexeme = .error failure) :
    reading.run (lexeme :: rest) = .error failure := by
  rw [run_cons, h]
  rfl

/-- A step succeeds where a phase follows and the lexeme's effect succeeds. -/
theorem step_eq_ok_iff : reading.step lexeme = .ok after ↔
    reading.phase.next lexeme = some after.phase ∧
      reading.phase.effect lexeme reading.toContents = .ok after.toContents := by
  unfold step
  cases following : reading.phase.next lexeme with
  | none => simp
  | some phase =>
    cases effect : reading.phase.effect lexeme reading.toContents with
    | error failure => simp [Except.map]
    | ok contents =>
      cases after
      simp [Except.map, and_comm]

/-- Between directives a step adds nothing to the contents. -/
theorem contents_of_top (top : reading.phase = .top) (step : reading.step lexeme = .ok after) :
    after.toContents = reading.toContents := by
  have effect := (step_eq_ok_iff.mp step).2
  rw [top, Phase.effect_of_none rfl rfl] at effect
  exact (Except.ok.inj effect).symm

/-- Where no phase follows, a step blames. -/
theorem step_of_next_none (h : reading.phase.next lexeme = none) :
    reading.step lexeme = .error (reading.phase.blamed lexeme).unexpected := by
  simp only [step, h]

/-- A run over a list with one more lexeme in front succeeds through a step. -/
theorem run_cons_eq_ok_iff : reading.run (lexeme :: rest) = .ok after ↔
    ∃ next, reading.step lexeme = .ok next ∧ next.run rest = .ok after := by
  cases h : reading.step lexeme with
  | error failure => simp [run_cons_of_error h]
  | ok next => simp [run_cons_of_step h]

/-- A run over two lists succeeds through a run over the first. -/
theorem run_append_eq_ok_iff {front back : List Lexeme} : reading.run (front ++ back) = .ok after ↔
    ∃ middle, reading.run front = .ok middle ∧ middle.run back = .ok after := by
  rw [run_append]
  cases reading.run front with
  | error failure => simp [bind, Except.bind]
  | ok middle => simp [bind, Except.bind]

end Reading

end LinkScript
