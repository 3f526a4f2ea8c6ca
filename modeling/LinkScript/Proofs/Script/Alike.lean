import LinkScript.Proofs.Script.Refusal
import Mathlib.Data.List.Forall2

/-!
# Scripts that are read alike

A reading goes by the kinds of lexemes and by the texts of literals, and it does not tell `INPUT`
from `GROUP`.  Two lists of lexemes that agree in this are read alike, wherever their lexemes stand
and however they are spelled.

* `tokenize_of_scan_eq_map`: a source with mapped lexemes tokenizes as they are mapped.
* `Lexeme.Alike` is what two lexemes have to agree in.
* `Agree` relates two outcomes that are both good or both bad.
* `Phase.Alike`, `Entry.Alike` and `LinkFailure.Alike` say of the parts of a reading that they come
  from related lexemes, for a relation that may say more about the lexemes than that they are alike.
* `Reading.step_alike` is one step on each side, and `Reading.run_alike` is the whole of two runs:
  they come to related readings, or they fail for related lexemes.
* `parse_alike` says so of two sources that tokenize.
-/

namespace LinkScript

/-! ## Mapped lexemes -/

/-- Lexemes that are mapped to lexemes with the same validity tokenize as they are mapped. -/
theorem tokenize_of_scan_eq_map {source target : Bytes} {f : Lexeme → Lexeme}
    (scans : scan target = (scan source).map f)
    (invalid : ∀ lexeme ∈ scan source, (f lexeme).kind = .invalid ↔ lexeme.kind = .invalid)
    (same : ∀ lexeme ∈ scan source, lexeme.kind = .invalid →
      (f lexeme).invalidToken = lexeme.invalidToken) :
    tokenize target = (tokenize source).map (List.map f) := by
  cases tokens : tokenize source with
  | error failure =>
    obtain ⟨before, lexeme, after, place, first, valid, rfl⟩ := tokenize_eq_error_iff.mp tokens
    have mem : lexeme ∈ scan source := by simp [place]
    refine tokenize_eq_error_iff.mpr ⟨before.map f, f lexeme, after.map f, ?_,
      (invalid lexeme mem).mpr first, ?_, (same lexeme mem first).symm⟩
    · rw [scans, place, List.map_append, List.map_cons]
    · rw [List.forall_mem_map]
      intro earlier mem
      exact mt (invalid earlier (by simp [place, mem])).mp (valid earlier mem)
  | ok lexemes =>
    have whole := scan_of_tokenize tokens
    subst whole
    refine (tokenize_eq_scan ?_).trans (congrArg Except.ok scans)
    rw [scans, List.forall_mem_map]
    intro lexeme mem
    exact mt (invalid lexeme mem).mp (kind_ne_invalid_of_tokenize tokens mem)

/-! ## Related lexemes -/

/-- Lexemes that a reading cannot tell apart: of one kind or two keywords of groups, and with one
text if they are literals. -/
structure Lexeme.Alike (lexeme other : Lexeme) : Prop where
  kind : lexeme.kind = other.kind ∨
    lexeme.kind ∈ [.command .input, .command .group] ∧
      other.kind ∈ [.command .input, .command .group]
  text : lexeme.kind = .literal → lexeme.text = other.text

/-- Only the keywords of groups are confused. -/
theorem Lexeme.Alike.kind_eq_iff {lexeme other : Lexeme} (alike : lexeme.Alike other)
    {kind : TokenKind} (told : kind ∉ [.command .input, .command .group]) :
    lexeme.kind = kind ↔ other.kind = kind := by
  rcases alike.kind with same | ⟨group, othersGroup⟩
  · rw [same]
  · refine iff_of_false ?_ ?_
    · rintro rfl
      exact told group
    · rintro rfl
      exact told othersGroup

/-- Two outcomes that are both good or both bad, and related. -/
inductive Agree {α β ε δ : Type} (good : α → β → Prop) (bad : ε → δ → Prop) :
    Except ε α → Except δ β → Prop
  | ok {value : α} {other : β} (related : good value other) : Agree good bad (.ok value) (.ok other)
  | error {failure : ε} {other : δ} (related : bad failure other) :
      Agree good bad (.error failure) (.error other)

/-- Outcomes that agree also agree in whatever follows from it. -/
theorem Agree.imp {α β ε δ : Type} {good good' : α → β → Prop} {bad bad' : ε → δ → Prop}
    {outcome : Except ε α} {other : Except δ β} (agree : Agree good bad outcome other)
    (goods : ∀ {value other}, good value other → good' value other)
    (bads : ∀ {failure other}, bad failure other → bad' failure other) :
    Agree good' bad' outcome other := by
  cases agree with
  | ok related => exact .ok (goods related)
  | error related => exact .error (bads related)

section

variable (Related : Lexeme → Lexeme → Prop)

/-- Phases at one point of the grammar, with related lexemes kept. -/
inductive Phase.Alike : Phase → Phase → Prop
  | top : Alike .top .top
  | format : Alike .format .format
  | formatOpen : Alike .formatOpen .formatOpen
  | formatRead {operand other : Lexeme} (related : Related operand other)
      (literal : operand.kind = .literal) : Alike (.formatRead operand) (.formatRead other)
  | block {newline other : Lexeme} (related : Related newline other) :
      Alike (.block newline) (.block other)
  | blockOpen : Alike .blockOpen .blockOpen
  | blockRead {operand other : Lexeme} (related : Related operand other)
      (literal : operand.kind = .literal) : Alike (.blockRead operand) (.blockRead other)
  | blockLastLine {operand other : Lexeme} (related : Related operand other)
      (literal : operand.kind = .literal) : Alike (.blockLastLine operand) (.blockLastLine other)
  | group : Alike .group .group
  | items : Alike .items .items
  | asNeeded : Alike .asNeeded .asNeeded
  | names : Alike .names .names
  | done : Alike .done .done

/-- Entries of related literals. -/
inductive Entry.Alike : Entry → Entry → Prop
  | intro {lexeme other : Lexeme} (related : Related lexeme other)
      (literal : lexeme.kind = .literal) (needed : Bool) :
      Alike (lexeme.entry needed) (other.entry needed)

/-- Failures of related lexemes. -/
inductive LinkFailure.Alike : LinkFailure → LinkFailure → Prop
  | unexpected {lexeme other : Lexeme} (related : Related lexeme other) :
      Alike lexeme.unexpected other.unexpected
  | unsupported {lexeme other : Lexeme} (related : Related lexeme other)
      (literal : lexeme.kind = .literal) :
      Alike ⟨.unknownCpuArch lexeme.text, lexeme.position⟩
        ⟨.unknownCpuArch other.text, other.position⟩

/-- Contents with one architecture and with entries of related literals. -/
structure Contents.Alike (contents other : Contents) : Prop where
  cpuArch : contents.cpuArch = other.cpuArch
  entries : List.Forall₂ (Entry.Alike Related) contents.entries other.entries

/-- Readings that have come to one point with contents that are alike. -/
structure Reading.Alike (reading other : Reading) : Prop where
  phase : Phase.Alike Related reading.phase other.phase
  contents : Contents.Alike Related reading.toContents other.toContents

end

/-! ## Steps -/

section

variable {Related : Lexeme → Lexeme → Prop} {lexeme other : Lexeme} {phase there : Phase}

namespace Phase

/-- The keyword of a group leads to the group from between directives, and from nowhere else. -/
theorem next_of_group (group : lexeme.kind ∈ [.command .input, .command .group]) :
    phase.next lexeme = if phase = .top then some .group else none := by
  have kinds : lexeme.kind = .command .input ∨ lexeme.kind = .command .group := by
    simpa using group
  cases phase <;> rcases kinds with kind | kind <;> simp [next, kind]

/-- Lexemes that are alike lead from one point of the grammar to one point. -/
theorem next_alike (phases : Alike Related phase there) (related : Related lexeme other)
    (alike : lexeme.Alike other) :
    Option.Rel (Alike Related) (phase.next lexeme) (there.next other) := by
  rcases alike.kind with same | ⟨group, othersGroup⟩
  · -- lexemes of one kind take one branch
    cases phases <;> simp only [next, ← same] <;> repeat' split
    all_goals constructor
    all_goals constructor <;> assumption
  · rw [next_of_group group, next_of_group othersGroup]
    cases phases with
    | top => exact .some .group
    | _ =>
      simp only [reduceCtorEq, if_false]
      exact .none

/-- Where no phase follows, related lexemes are to blame. -/
theorem blamed_alike (phases : Alike Related phase there) (related : Related lexeme other) :
    Related (phase.blamed lexeme) (there.blamed other) := by
  cases phases with
  | block newlines => exact newlines
  | _ => exact related

/-- Lexemes that are alike select related formats. -/
theorem selected?_alike (phases : Alike Related phase there) (alike : lexeme.Alike other) :
    Option.Rel (fun operand other => Related operand other ∧ operand.kind = .literal)
      (phase.selected? lexeme) (there.selected? other) := by
  have closes : lexeme.kind = .rbrace ↔ other.kind = .rbrace := alike.kind_eq_iff (by decide)
  cases phases with
  | formatRead related literal | blockLastLine related literal => exact .some ⟨related, literal⟩
  | blockRead related literal =>
    simp only [selected?, closes]
    split
    · exact .some ⟨related, literal⟩
    · exact .none
  | _ => exact .none

/-- Lexemes that are alike name a library or name none, needed or not. -/
theorem needed?_alike (phases : Alike Related phase there) (alike : lexeme.Alike other) :
    phase.needed? lexeme = there.needed? other := by
  have literals : lexeme.kind = .literal ↔ other.kind = .literal := alike.kind_eq_iff (by decide)
  cases phases <;> simp only [needed?, literals]

end Phase

/-! ## Runs -/

variable {contents others : Contents} {reading apart : Reading} {lexemes there : List Lexeme}

/-- Formats with one text select one architecture, or neither is supported. -/
theorem Contents.Alike.select (before : Contents.Alike Related contents others)
    (related : Related lexeme other) (literal : lexeme.kind = .literal)
    (text : lexeme.text = other.text) :
    Agree (Contents.Alike Related) (LinkFailure.Alike Related)
      (contents.select lexeme) (others.select other) := by
  unfold Contents.select
  rw [← text]
  split
  · exact .ok ⟨rfl, before.entries⟩
  · have failed := LinkFailure.Alike.unsupported related literal
    rw [← text] at failed
    exact .error failed

/-- Related literals add libraries that are alike. -/
theorem Contents.Alike.add (before : Contents.Alike Related contents others)
    (related : Related lexeme other) (literal : lexeme.kind = .literal) (needed : Bool) :
    Contents.Alike Related (contents.add lexeme needed) (others.add other needed) where
  cpuArch := before.cpuArch
  entries := List.rel_append before.entries (.cons (.intro related literal needed) .nil)

variable (alike : ∀ {lexeme other : Lexeme}, Related lexeme other → lexeme.Alike other)
include alike

/-- Related lexemes have effects that are alike. -/
theorem Phase.effect_alike {phase there : Phase} (phases : Phase.Alike Related phase there)
    (related : Related lexeme other) (before : Contents.Alike Related contents others) :
    Agree (Contents.Alike Related) (LinkFailure.Alike Related)
      (phase.effect lexeme contents) (there.effect other others) := by
  have formats := selected?_alike phases (alike related)
  have names := needed?_alike phases (alike related)
  unfold effect
  rw [← names]
  generalize phase.selected? lexeme = selected, there.selected? other = selected' at formats
  cases formats with
  | some operands => exact before.select operands.1 operands.2 ((alike operands.1).text operands.2)
  | none =>
    cases named : phase.needed? lexeme with
    | none => exact .ok before
    | some needed =>
      have literal : lexeme.kind = .literal := by
        by_contra kind
        rw [needed?_of_ne_literal kind] at named
        cases named
      exact .ok (before.add related literal needed)

namespace Reading

/-- **Related lexemes take related readings to related readings**, or they are to blame on both
sides. -/
theorem step_alike (before : Alike Related reading apart) (related : Related lexeme other) :
    Agree (Alike Related) (LinkFailure.Alike Related)
      (reading.step lexeme) (apart.step other) := by
  have leads := Phase.next_alike before.phase related (alike related)
  have effects := Phase.effect_alike alike before.phase related before.contents
  unfold step
  generalize reading.phase.next lexeme = next, apart.phase.next other = next' at leads
  generalize reading.phase.effect lexeme reading.toContents = effect,
    apart.phase.effect other apart.toContents = effect' at effects
  cases leads with
  | none => exact .error (.unexpected (Phase.blamed_alike before.phase related))
  | some phases =>
    cases effects with
    | error failed => exact .error failed
    | ok contents => exact .ok ⟨phases, contents⟩

/-- **Related lists are read alike**: the runs over them come to related readings, or they fail for
related lexemes. -/
theorem run_alike (before : Alike Related reading apart)
    (related : List.Forall₂ Related lexemes there) :
    Agree (Alike Related) (LinkFailure.Alike Related)
      (reading.run lexemes) (apart.run there) := by
  induction related generalizing reading apart with
  | nil => exact .ok before
  | @cons lexeme other rest rest' first _ ih =>
    have steps := step_alike alike before first
    rw [run_cons, run_cons]
    generalize reading.step lexeme = step, apart.step other = step' at steps
    cases steps with
    | error failed => exact .error failed
    | ok after => exact ih after

end Reading

/-- Sources that tokenize to related lexemes are read alike. -/
theorem parse_alike {source target : Bytes} (tokens : tokenize source = .ok lexemes)
    (tokens' : tokenize target = .ok there) (related : List.Forall₂ Related lexemes there) :
    Agree (Contents.Alike Related)
      (fun fault other => ∃ failure failure', LinkFailure.Alike Related failure failure' ∧
        fault = .link failure ∧ other = .link failure')
      (parse source) (parse target) := by
  have start : Reading.Alike Related {} {} := ⟨.top, rfl, .nil⟩
  have runs := Reading.run_alike alike start related
  rw [parse_of_tokenize tokens, parse_of_tokenize tokens']
  generalize Reading.run {} lexemes = run, Reading.run {} there = run' at runs
  cases runs with
  | error failed => exact .error ⟨_, _, failed, rfl, rfl⟩
  | ok after => exact .ok after.contents

end

end LinkScript
