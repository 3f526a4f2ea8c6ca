import LinkScript.Proofs.Script.Acceptance
import Mathlib.Data.List.Basic

/-!
# Which lexeme is blamed

A script that is refused for its grammar is refused at the first lexeme that no continuation could
mend, and a script with an unsupported format is refused at that format, if its directive is closed
before the grammar fails.

* `Grammar.Viable` kinds begin some script.  `Phase.walk` is a reading without what it reads, and
  `Grammar.viable_iff_walk` says that it goes as far as the kinds are viable.
* `Grammar.closedOperands` are the formats of directives that are closed, and `Phase.closing` are
  those that a phase will close; `Phase.closing_cons` is the step of the latter.
* `Reading.run_of_walk`: where the walk goes through, a run fails only at the first unsupported
  format that is closed.
* `culprit` is the lexeme to blame for one that cannot be mended: itself, or the newline that
  should have begun a block.
* `parse_blames` puts these together for the parser.
-/

namespace LinkScript

open Grammar

/-! ## Viable kinds and closed formats, without a parser -/

namespace Grammar

/-- Kinds that some script begins with. -/
def Viable (kinds : List TokenKind) : Prop := ∃ rest, Sentence (kinds ++ rest)

/-- Whether a lexeme is a bracket that closes a format. -/
def closesFormat (lexeme : Lexeme) : Bool := lexeme.kind = .rparen ∨ lexeme.kind = .rbrace

/-- The first literal, if a closing bracket stands behind it. -/
def closedOperand? (lexemes : List Lexeme) : Option Lexeme :=
  match lexemes.dropWhile (·.kind ≠ .literal) with
  | [] => none
  | operand :: behind => if behind.any closesFormat then some operand else none

/-- The formats of directives that are closed: the first literal behind each `OUTPUT_FORMAT`, if a
closing bracket stands behind it. -/
def closedOperands : List Lexeme → List Lexeme
  | [] => []
  | lexeme :: rest =>
    if lexeme.kind = .command .outputFormat then
      (closedOperand? rest).toList ++ closedOperands rest
    else closedOperands rest

end Grammar

instance (operand : Lexeme) : Decidable operand.Supported :=
  decidable_of_iff _ Lexeme.supported_iff.symm

/-- The first of some formats that names no supported architecture. -/
def firstUnsupported (operands : List Lexeme) : Option Lexeme :=
  operands.find? fun operand => ¬ operand.Supported

/-- The failure that a format of no supported architecture stands for. -/
def Lexeme.unsupported (operand : Lexeme) : LinkFailure :=
  ⟨.unknownCpuArch operand.text, operand.position⟩

/-- The lexeme to blame for one that stands where the grammar has nothing for it: itself, except
that behind `OUTPUT_FORMAT` and a newline the newline is blamed. -/
def culprit (front : List Lexeme) (lexeme : Lexeme) : Lexeme :=
  match front.reverse with
  | newline :: keyword :: _ =>
    if keyword.kind = .command .outputFormat ∧ newline.kind = .newline then newline else lexeme
  | _ => lexeme

/-! ## Walks -/

namespace Phase

/-- The phase behind a list of lexemes. -/
def walk (phase : Phase) (lexemes : List Lexeme) : Option Phase := lexemes.foldlM next phase

/-- No lexemes lead nowhere else. -/
@[simp] theorem walk_nil (phase : Phase) : phase.walk [] = some phase := rfl

/-- A walk over two lists is one walk behind the other. -/
theorem walk_append (phase : Phase) (front back : List Lexeme) :
    phase.walk (front ++ back) = (phase.walk front).bind fun middle => middle.walk back := by
  unfold walk
  exact List.foldlM_append

variable {phase following finish : Phase} {lexeme : Lexeme} {lexemes rest : List Lexeme}

/-- A walk goes through a lexeme if a phase follows, and on behind it. -/
theorem walk_cons_eq_some_iff : phase.walk (lexeme :: rest) = some finish ↔
    ∃ following, phase.next lexeme = some following ∧ following.walk rest = some finish := by
  unfold walk
  rw [List.foldlM_cons]
  exact Option.bind_eq_some_iff

/-- A walk goes through one more lexeme if a phase follows. -/
theorem walk_concat_eq_some_iff : phase.walk (lexemes ++ [lexeme]) = some finish ↔
    ∃ middle, phase.walk lexemes = some middle ∧ middle.next lexeme = some finish := by
  rw [walk_append, Option.bind_eq_some_iff]
  simp [walk_cons_eq_some_iff]

/-- A walk goes through, or it comes to a first lexeme that leads nowhere. -/
theorem walk_cases (phase : Phase) (lexemes : List Lexeme) :
    (∃ finish, phase.walk lexemes = some finish) ∨
    ∃ front lexeme back middle, lexemes = front ++ lexeme :: back ∧
      phase.walk front = some middle ∧ middle.next lexeme = none := by
  induction lexemes generalizing phase with
  | nil => exact Or.inl ⟨phase, rfl⟩
  | cons lexeme rest ih =>
    cases leads : phase.next lexeme with
    | none => exact Or.inr ⟨[], lexeme, rest, phase, rfl, rfl, leads⟩
    | some following =>
      rcases ih following with ⟨finish, walk⟩ | ⟨front, stuck, back, middle, rfl, walk, stop⟩
      · exact Or.inl ⟨finish, walk_cons_eq_some_iff.mpr ⟨following, leads, walk⟩⟩
      · exact Or.inr ⟨lexeme :: front, stuck, back, middle, rfl,
          walk_cons_eq_some_iff.mpr ⟨following, leads, walk⟩, stop⟩

/-- Something may follow every phase. -/
theorem exists_admits (phase : Phase) : ∃ kinds, phase.Admits kinds := by
  have last := Sentence.eof
  cases phase with
  | top => exact ⟨_, last⟩
  | format => exact ⟨_, _, last, Or.inl rfl⟩
  | formatOpen => exact ⟨_, _, last, rfl⟩
  | formatRead _ => exact ⟨_, _, last, rfl⟩
  | block _ => exact ⟨_, _, last, Or.inl rfl⟩
  | blockOpen => exact ⟨_, _, last, Or.inl rfl⟩
  | blockRead _ => exact ⟨_, _, last, Or.inl rfl⟩
  | blockLastLine _ => exact ⟨_, _, last, rfl⟩
  | group => exact ⟨_, [], _, Items.nil, last, rfl⟩
  | items => exact ⟨_, [], _, Items.nil, last, rfl⟩
  | asNeeded => exact ⟨_, [], [], _, Names.nil, Items.nil, last, rfl⟩
  | names => exact ⟨_, [], [], _, Names.nil, Items.nil, last, rfl⟩
  | done => exact ⟨[], rfl⟩

/-- A phase admits lexemes and what follows them if the walk over them leads to a phase that admits
the latter. -/
theorem admits_append {kinds : List TokenKind} :
    phase.Admits (lexemes.map (·.kind) ++ kinds) ↔
      ∃ finish, phase.walk lexemes = some finish ∧ finish.Admits kinds := by
  induction lexemes generalizing phase with
  | nil => simp
  | cons lexeme rest ih =>
    rw [List.map_cons, List.cons_append, admits_cons]
    simp only [ih, walk_cons_eq_some_iff]
    constructor
    · rintro ⟨following, leads, finish, walk, admits⟩
      exact ⟨finish, ⟨following, leads, walk⟩, admits⟩
    · rintro ⟨finish, ⟨following, leads, walk⟩, admits⟩
      exact ⟨following, leads, finish, walk, admits⟩

/-- A phase admits the kinds of lexemes up to the end if the walk over them comes to the end. -/
theorem admits_iff_walk : phase.Admits (lexemes.map (·.kind)) ↔ phase.walk lexemes = some .done := by
  have whole : phase.Admits (lexemes.map (·.kind) ++ []) ↔ _ := admits_append
  rw [List.append_nil] at whole
  simp [whole, admits_nil]

/-- A walk over lexemes that end in `eof` comes to the end. -/
theorem eq_done_of_walk (ended : Ended lexemes) (walk : phase.walk lexemes = some finish) :
    finish = .done := by
  induction ended generalizing phase with
  | @eof lexeme kind =>
    obtain ⟨following, leads, ⟨⟩⟩ := walk_cons_eq_some_iff.mp walk
    cases next_eq_some_iff.mp leads <;> simp_all
  | cons _ _ ih =>
    obtain ⟨following, -, walk⟩ := walk_cons_eq_some_iff.mp walk
    exact ih walk

end Phase

/-- **Kinds are viable as far as a walk goes through their lexemes.** -/
theorem Grammar.viable_iff_walk {lexemes : List Lexeme} :
    Viable (lexemes.map (·.kind)) ↔ ∃ finish, Phase.top.walk lexemes = some finish := by
  show (∃ rest, Phase.top.Admits (lexemes.map (·.kind) ++ rest)) ↔ _
  simp only [Phase.admits_append]
  constructor
  · rintro ⟨_, finish, walk, _⟩
    exact ⟨finish, walk⟩
  · rintro ⟨finish, walk⟩
    obtain ⟨kinds, follows⟩ := finish.exists_admits
    exact ⟨kinds, finish, walk, follows⟩

/-! ## The formats that a walk closes -/

/-- The formats that lexemes ahead of a phase close: the one being read, and those of the
directives ahead. -/
def Phase.closing (phase : Phase) (lexemes : List Lexeme) : List Lexeme :=
  match phase with
  | .format | .formatOpen | .block _ | .blockOpen =>
    (closedOperand? lexemes).toList ++ closedOperands lexemes
  | .formatRead operand | .blockRead operand | .blockLastLine operand =>
    (if lexemes.any closesFormat then some operand else none).toList ++ closedOperands lexemes
  | _ => closedOperands lexemes

namespace Phase

variable {phase following finish : Phase} {lexeme : Lexeme} {lexemes : List Lexeme}

/-- With no lexemes ahead nothing is closed. -/
@[simp] theorem closing_nil (phase : Phase) : phase.closing [] = [] := by
  cases phase <;> simp [closing, closedOperands, closedOperand?]

/-- A lexeme that leads on closes the first of these formats or none. -/
theorem closing_cons (rest : List Lexeme) (h : phase.next lexeme = some following) :
    phase.closing (lexeme :: rest) =
      (phase.selected? lexeme).toList ++ following.closing rest := by
  cases next_eq_some_iff.mp h with
  | between kind =>
    rcases kind with kind | kind <;> simp [closing, closedOperands, selected?, kind]
  | group kind =>
    rcases kind with kind | kind <;> simp [closing, closedOperands, selected?, kind]
  | _ kind =>
    simp [closing, closedOperands, closedOperand?, closesFormat, selected?, kind]

/-- The lexemes of a whole script close every format. -/
theorem closing_eq_operands (walk : phase.walk lexemes = some .done) :
    phase.closing lexemes = phase.operands lexemes := by
  induction lexemes generalizing phase with
  | nil =>
    cases walk
    rfl
  | cons lexeme rest ih =>
    obtain ⟨following, leads, walk⟩ := walk_cons_eq_some_iff.mp walk
    rw [closing_cons rest leads, operands_cons rest leads, ih walk]

end Phase

/-! ## Runs -/

namespace Contents

variable {contents : Contents} {operand : Lexeme}

/-- A format of no supported architecture cannot be selected. -/
theorem select_of_not_supported (h : ¬ operand.Supported) :
    contents.select operand = .error operand.unsupported := by
  unfold Lexeme.Supported at h
  unfold select
  cases found : CpuArch.ofOutputFormat? operand.text with
  | none => rfl
  | some arch => exact absurd ⟨arch, found⟩ h

end Contents

namespace Reading

variable {finish : Phase} {lexemes : List Lexeme}

/-- **Where a walk goes through, a run fails only at a format.**  It fails at the first format that
is closed and not supported, and otherwise comes to where the walk comes to. -/
theorem run_of_walk (reading : Reading) (walk : reading.phase.walk lexemes = some finish) :
    (∀ operand, firstUnsupported (reading.phase.closing lexemes) = some operand →
      reading.run lexemes = .error operand.unsupported) ∧
    (firstUnsupported (reading.phase.closing lexemes) = none →
      ∃ contents, reading.run lexemes = .ok ⟨contents, finish⟩) := by
  induction lexemes generalizing reading with
  | nil =>
    cases walk
    exact ⟨by simp [firstUnsupported], fun _ => ⟨reading.toContents, rfl⟩⟩
  | cons lexeme rest ih =>
    obtain ⟨following, leads, walk⟩ := Phase.walk_cons_eq_some_iff.mp walk
    rw [Phase.closing_cons rest leads]
    by_cases selects : ∃ operand, reading.phase.selected? lexeme = some operand ∧ ¬ operand.Supported
    · obtain ⟨operand, selected, unsupported⟩ := selects
      have stop : reading.step lexeme = .error operand.unsupported := by
        simp [step, leads, Phase.effect_of_selected selected,
          Contents.select_of_not_supported unsupported, Except.map]
      have first : firstUnsupported ((reading.phase.selected? lexeme).toList ++
          following.closing rest) = some operand := by
        simp [firstUnsupported, selected, unsupported]
      rw [first, run_cons_of_error stop]
      simp
    · have supported : ∀ operand ∈ reading.phase.selected? lexeme, operand.Supported := by
        intro operand mem
        by_contra unsupported
        exact selects ⟨operand, mem, unsupported⟩
      obtain ⟨contents, effect⟩ := Phase.effect_isOk_iff.mpr supported
      have step : reading.step lexeme = .ok ⟨contents, following⟩ :=
        step_eq_ok_iff.mpr ⟨leads, effect⟩
      have first : firstUnsupported ((reading.phase.selected? lexeme).toList ++
          following.closing rest) = firstUnsupported (following.closing rest) := by
        unfold firstUnsupported
        rw [List.find?_append, List.find?_eq_none.mpr, Option.none_or]
        intro operand mem
        simpa using supported operand (Option.mem_toList.mp mem)
      rw [first, run_cons_of_step step]
      exact ih ⟨contents, following⟩ walk

end Reading

/-! ## The lexeme to blame -/

namespace Phase

variable {phase following : Phase} {lexeme : Lexeme}

/-- A format begins behind `OUTPUT_FORMAT` and nowhere else. -/
theorem eq_format_iff (h : phase.next lexeme = some following) :
    following = .format ↔ lexeme.kind = .command .outputFormat := by
  cases next_eq_some_iff.mp h with
  | between kind => rcases kind with kind | kind <;> simp [kind]
  | group kind => rcases kind with kind | kind <;> simp [kind]
  | _ kind => simp [kind]

/-- A phase blames the newline that leads to it from a format, and otherwise what it is given. -/
theorem blamed_eq (h : phase.next lexeme = some following) (stuck : Lexeme) :
    following.blamed stuck =
      if phase = .format ∧ lexeme.kind = .newline then lexeme else stuck := by
  cases next_eq_some_iff.mp h with
  | between kind => simp [blamed]
  | group kind => simp [blamed]
  | _ kind => simp [blamed, kind]

/-- **The lexeme that a walk blames** can be told from the lexemes before it. -/
theorem blamed_eq_culprit {front : List Lexeme} (walk : Phase.top.walk front = some phase)
    (stuck : Lexeme) : phase.blamed stuck = culprit front stuck := by
  rcases List.eq_nil_or_concat front with rfl | ⟨before, newline, rfl⟩
  · cases walk
    rfl
  obtain ⟨middle, walk, leads⟩ := walk_concat_eq_some_iff.mp (by simpa using walk)
  rw [blamed_eq leads]
  rcases List.eq_nil_or_concat before with rfl | ⟨earlier, keyword, rfl⟩
  · cases walk
    rfl
  obtain ⟨start, -, leads⟩ := walk_concat_eq_some_iff.mp (by simpa using walk)
  simp [culprit, eq_format_iff leads]

end Phase

/-! ## The parser -/

section

variable {source : Bytes} {lexemes : List Lexeme}

/-- A source is refused for what its run fails with. -/
theorem parse_eq_error_iff (tokens : tokenize source = .ok lexemes) {fault : ParseFault} :
    parse source = .error fault ↔
      ∃ failure, Reading.run {} lexemes = .error failure ∧ fault = .link failure := by
  rw [parse_of_tokenize tokens]
  cases run : Reading.run {} lexemes with
  | error failure =>
    show Except.error (ParseFault.link failure) = .error fault ↔ _
    simp [eq_comm]
  | ok after =>
    show Except.ok after.toContents = .error fault ↔ _
    simp

/-- A source is refused at the first unsupported format that is closed before the grammar fails. -/
theorem parse_of_unsupported (tokens : tokenize source = .ok lexemes) {front back : List Lexeme}
    {finish : Phase} {operand : Lexeme} (place : lexemes = front ++ back)
    (walk : Phase.top.walk front = some finish)
    (first : firstUnsupported (closedOperands front) = some operand) :
    parse source = .error (.link operand.unsupported) := by
  refine (parse_eq_error_iff tokens).mpr ⟨_, ?_, rfl⟩
  rw [place, Reading.run_append, (Reading.run_of_walk {} walk).1 operand first]
  rfl

/-- A source is refused where the grammar fails, if every format closed before is supported. -/
theorem parse_of_stuck (tokens : tokenize source = .ok lexemes) {front back : List Lexeme}
    {lexeme : Lexeme} {middle : Phase} (place : lexemes = front ++ lexeme :: back)
    (walk : Phase.top.walk front = some middle) (stop : middle.next lexeme = none)
    (supported : firstUnsupported (closedOperands front) = none) :
    parse source = .error (.link (culprit front lexeme).unexpected) := by
  refine (parse_eq_error_iff tokens).mpr ⟨_, ?_, rfl⟩
  obtain ⟨contents, run⟩ := (Reading.run_of_walk {} walk).2 supported
  rw [place, Reading.run_append, run, ← Phase.blamed_eq_culprit walk lexeme]
  exact Reading.run_cons_of_error (Reading.step_of_next_none stop)

/-- The beginnings of a list that are viable are those that a walk goes through. -/
theorem viable_iff_length_le {front back part : List Lexeme} {lexeme : Lexeme} {middle : Phase}
    (walk : Phase.top.walk front = some middle) (stop : middle.next lexeme = none)
    (start : part <+: front ++ lexeme :: back) :
    Viable (part.map (·.kind)) ↔ part.length ≤ front.length := by
  rw [viable_iff_walk]
  constructor
  · rintro ⟨finish, through⟩
    by_contra long
    have whole : front ++ [lexeme] <+: part := by
      refine List.prefix_of_prefix_length_le ⟨back, by simp⟩ start ?_
      simp only [List.length_append, List.length_singleton]
      omega
    obtain ⟨more, rfl⟩ := whole
    rw [List.append_assoc, Phase.walk_append, walk] at through
    obtain ⟨following, leads, -⟩ := Phase.walk_cons_eq_some_iff.mp through
    rw [stop] at leads
    cases leads
  · intro short
    obtain ⟨more, rfl⟩ := List.prefix_of_prefix_length_le start (List.prefix_append _ _) short
    rw [Phase.walk_append] at walk
    obtain ⟨finish, through, -⟩ := Option.bind_eq_some_iff.mp walk
    exact ⟨finish, through⟩

end

/-- **Rejections point at the right lexeme.**  Let a source tokenize.

If its kinds are no sentence, there is a first lexeme with which they stop being viable.  The
source is refused at the first unsupported format of a directive closed before that lexeme, if there
is one, and otherwise at that lexeme, or at the newline before it if that stands behind
`OUTPUT_FORMAT`.

If its kinds are a sentence, it is refused at the first unsupported format, if there is one. -/
theorem parse_blames {source : Bytes} {lexemes : List Lexeme}
    (tokens : tokenize source = .ok lexemes) :
    (¬ Sentence (lexemes.map (·.kind)) →
      ∃ front lexeme back, lexemes = front ++ lexeme :: back ∧
        (∀ part, part <+: lexemes →
          (Viable (part.map (·.kind)) ↔ part.length ≤ front.length)) ∧
        (∀ operand, firstUnsupported (closedOperands front) = some operand →
          parse source = .error (.link operand.unsupported)) ∧
        (firstUnsupported (closedOperands front) = none →
          parse source = .error (.link (culprit front lexeme).unexpected))) ∧
    (Sentence (lexemes.map (·.kind)) →
      ∀ operand, firstUnsupported (formatOperands lexemes) = some operand →
        parse source = .error (.link operand.unsupported)) := by
  have sentence : Phase.top.Admits (lexemes.map (·.kind)) ↔ Phase.top.walk lexemes = some .done :=
    Phase.admits_iff_walk
  constructor
  · intro noSentence
    rcases Phase.top.walk_cases lexemes with ⟨finish, walk⟩ | ⟨front, lexeme, back, middle, place,
      walk, stop⟩
    · obtain rfl := Phase.eq_done_of_walk (ended_of_tokenize tokens) walk
      exact absurd (sentence.mpr walk) noSentence
    · refine ⟨front, lexeme, back, place, ?_, ?_, ?_⟩
      · intro part start
        exact viable_iff_length_le walk stop (place ▸ start)
      · intro operand first
        exact parse_of_unsupported tokens place walk first
      · intro supported
        exact parse_of_stuck tokens place walk stop supported
  · intro isSentence operand first
    have walk := sentence.mp isSentence
    have closed : closedOperands lexemes = formatOperands lexemes :=
      Phase.closing_eq_operands walk
    rw [← closed] at first
    exact parse_of_unsupported tokens (List.append_nil lexemes).symm walk first

/-- A script whose first format has no brace on its second line. -/
def bracelessScript : Bytes :=
  Text.Utf8.encode "OUTPUT_FORMAT(elf64-x86-64)\nOUTPUT_FORMAT\nGROUP(a)"

/-- The newline is blamed for a format that has no brace. -/
theorem parse_blames_braceless :
    tokenize bracelessScript = .ok (scan bracelessScript) ∧
    ¬ Sentence ((scan bracelessScript).map (·.kind)) ∧
    ∃ front lexeme back, scan bracelessScript = front ++ lexeme :: back ∧
      (∀ part, part <+: scan bracelessScript →
        (Viable (part.map (·.kind)) ↔ part.length ≤ front.length)) ∧
      (∀ operand, firstUnsupported (closedOperands front) = some operand →
        parse bracelessScript = .error (.link operand.unsupported)) ∧
      (firstUnsupported (closedOperands front) = none →
        parse bracelessScript = .error (.link (culprit front lexeme).unexpected)) := by
  have tokens : tokenize bracelessScript = .ok (scan bracelessScript) :=
    tokenize_eq_scan (by decide +kernel)
  have noSentence : ¬ Sentence ((scan bracelessScript).map (·.kind)) := by
    show ¬ Phase.top.Admits _
    rw [Phase.admits_iff_walk]
    decide +kernel
  exact ⟨tokens, noSentence, (parse_blames tokens).1 noSentence⟩

end LinkScript
