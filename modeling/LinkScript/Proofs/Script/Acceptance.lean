import LinkScript.Proofs.Script.Reading
import LinkScript.Proofs.Token.Coverage

/-!
# Which scripts are accepted

Which sequences of token kinds are scripts is said without a parser, by a grammar.

* `Items` derives the inside of a group, in which `Names` may be wrapped in `AS_NEEDED`.
* `Directive` derives one directive: a format in one of its three layouts, or a group.
* `Sentence` derives a whole script: directives with comments and newlines between them, and
  `eof` at the end.

Inside a directive there is room for comments and newlines only where a layout names one.  The
grammar takes any literal as a format; `formatOperands` finds the ones that have to name an
architecture.

The grammar derives whole sentences, and a reading takes one lexeme after another.  The two meet in
`Phase.Admits phase kinds`, which says in the words of the grammar what may follow a phase up to the
end of the script.

* `Phase.admits_cons`: a phase admits a lexeme and what follows it exactly if some phase stands
  behind the lexeme and admits the rest.  The machine is thereby the one that the grammar asks for.
* `Phase.operands` lists the formats that are still to be closed, `Phase.operands_cons` is its step.
* `Reading.run_done_iff`: a run comes to its end exactly if the phase admits the kinds and every
  format names an architecture.
* `parse_isOk_iff_sentence` says so of the parser.
-/

namespace LinkScript

/-! ## The grammar -/

namespace Grammar

/-- A run of library names. -/
inductive Names : List TokenKind → Prop where
  | nil : Names []
  | cons {rest : List TokenKind} : Names rest → Names (.literal :: rest)

/-- The inside of a group. -/
inductive Items : List TokenKind → Prop where
  | nil : Items []
  | literal {rest : List TokenKind} : Items rest → Items (.literal :: rest)
  | asNeeded {names rest : List TokenKind} : Names names → Items rest →
      Items (.command .asNeeded :: .lparen :: names ++ .rparen :: rest)

/-- One directive. -/
inductive Directive : List TokenKind → Prop where
  | format : Directive [.command .outputFormat, .lparen, .literal, .rparen]
  | formatBlock : Directive [.command .outputFormat, .newline, .lbrace, .literal, .rbrace]
  | formatBlockLines :
      Directive [.command .outputFormat, .newline, .lbrace, .literal, .newline, .rbrace]
  | input {items : List TokenKind} : Items items →
      Directive (.command .input :: .lparen :: items ++ [.rparen])
  | group {items : List TokenKind} : Items items →
      Directive (.command .group :: .lparen :: items ++ [.rparen])

/-- A whole script. -/
inductive Sentence : List TokenKind → Prop where
  | eof : Sentence [.eof]
  | comment {rest : List TokenKind} : Sentence rest → Sentence (.comment :: rest)
  | newline {rest : List TokenKind} : Sentence rest → Sentence (.newline :: rest)
  | directive {first rest : List TokenKind} : Directive first → Sentence rest →
      Sentence (first ++ rest)

/-- The literals that stand for formats: the first one behind each `OUTPUT_FORMAT`. -/
def formatOperands : List Lexeme → List Lexeme
  | [] => []
  | lexeme :: rest =>
    if lexeme.kind = .command .outputFormat then
      (rest.find? (·.kind = .literal)).toList ++ formatOperands rest
    else formatOperands rest

end Grammar

open Grammar

/-! ## What may follow a phase -/

/-- The sequences of kinds that lead from a phase to the end of a script. -/
def Phase.Admits : Phase → List TokenKind → Prop
  | .top, kinds => Sentence kinds
  | .format, kinds => ∃ rest, Sentence rest ∧
      (kinds = .lparen :: .literal :: .rparen :: rest ∨
        kinds = .newline :: .lbrace :: .literal :: .rbrace :: rest ∨
        kinds = .newline :: .lbrace :: .literal :: .newline :: .rbrace :: rest)
  | .formatOpen, kinds => ∃ rest, Sentence rest ∧ kinds = .literal :: .rparen :: rest
  | .formatRead _, kinds => ∃ rest, Sentence rest ∧ kinds = .rparen :: rest
  | .block _, kinds => ∃ rest, Sentence rest ∧
      (kinds = .lbrace :: .literal :: .rbrace :: rest ∨
        kinds = .lbrace :: .literal :: .newline :: .rbrace :: rest)
  | .blockOpen, kinds => ∃ rest, Sentence rest ∧
      (kinds = .literal :: .rbrace :: rest ∨ kinds = .literal :: .newline :: .rbrace :: rest)
  | .blockRead _, kinds => ∃ rest, Sentence rest ∧
      (kinds = .rbrace :: rest ∨ kinds = .newline :: .rbrace :: rest)
  | .blockLastLine _, kinds => ∃ rest, Sentence rest ∧ kinds = .rbrace :: rest
  | .group, kinds => ∃ items rest, Items items ∧ Sentence rest ∧
      kinds = .lparen :: items ++ .rparen :: rest
  | .items, kinds => ∃ items rest, Items items ∧ Sentence rest ∧ kinds = items ++ .rparen :: rest
  | .asNeeded, kinds => ∃ names items rest, Names names ∧ Items items ∧ Sentence rest ∧
      kinds = .lparen :: names ++ .rparen :: items ++ .rparen :: rest
  | .names, kinds => ∃ names items rest, Names names ∧ Items items ∧ Sentence rest ∧
      kinds = names ++ .rparen :: items ++ .rparen :: rest
  | .done, kinds => kinds = []

/-- A sentence by its first kind: the end, something between directives, or a keyword. -/
theorem Grammar.sentence_cons {kind : TokenKind} {kinds : List TokenKind} :
    Sentence (kind :: kinds) ↔
      kind = .eof ∧ kinds = [] ∨
      (kind = .comment ∨ kind = .newline) ∧ Sentence kinds ∨
      kind = .command .outputFormat ∧ Phase.format.Admits kinds ∨
      (kind = .command .input ∨ kind = .command .group) ∧ Phase.group.Admits kinds := by
  constructor
  · intro sentence
    generalize whole : kind :: kinds = all at sentence
    cases sentence with
    | eof => simp_all
    | comment rest => simp_all
    | newline rest => simp_all
    | @directive first rest directive sentence =>
      cases directive with
      | format =>
        cases whole
        exact Or.inr (Or.inr (Or.inl ⟨rfl, rest, sentence, Or.inl rfl⟩))
      | formatBlock =>
        cases whole
        exact Or.inr (Or.inr (Or.inl ⟨rfl, rest, sentence, Or.inr (Or.inl rfl)⟩))
      | formatBlockLines =>
        cases whole
        exact Or.inr (Or.inr (Or.inl ⟨rfl, rest, sentence, Or.inr (Or.inr rfl)⟩))
      | @input items derived =>
        cases whole
        exact Or.inr (Or.inr (Or.inr ⟨Or.inl rfl, items, rest, derived, sentence, by simp⟩))
      | @group items derived =>
        cases whole
        exact Or.inr (Or.inr (Or.inr ⟨Or.inr rfl, items, rest, derived, sentence, by simp⟩))
  · rintro (⟨rfl, rfl⟩ | ⟨rfl | rfl, sentence⟩ | ⟨rfl, rest, sentence, rfl | rfl | rfl⟩ |
      ⟨rfl | rfl, items, rest, derived, sentence, rfl⟩)
    · exact Sentence.eof
    · exact Sentence.comment sentence
    · exact Sentence.newline sentence
    · exact Sentence.directive Directive.format sentence
    · exact Sentence.directive Directive.formatBlock sentence
    · exact Sentence.directive Directive.formatBlockLines sentence
    · simpa using Sentence.directive (Directive.input derived) sentence
    · simpa using Sentence.directive (Directive.group derived) sentence

/-- The inside of a group by its first kind. -/
theorem Phase.items_admits_cons {kind : TokenKind} {kinds : List TokenKind} :
    Phase.items.Admits (kind :: kinds) ↔
      kind = .literal ∧ Phase.items.Admits kinds ∨
      kind = .command .asNeeded ∧ Phase.asNeeded.Admits kinds ∨
      kind = .rparen ∧ Phase.top.Admits kinds := by
  constructor
  · rintro ⟨items, rest, derived, sentence, whole⟩
    cases derived with
    | nil =>
      cases whole
      exact Or.inr (Or.inr ⟨rfl, sentence⟩)
    | @literal inside derived =>
      cases whole
      exact Or.inl ⟨rfl, inside, rest, derived, sentence, rfl⟩
    | @asNeeded names inside list derived =>
      cases whole
      refine Or.inr (Or.inl ⟨rfl, names, inside, rest, list, derived, sentence, ?_⟩)
      simp
  · rintro (⟨rfl, items, rest, derived, sentence, rfl⟩ |
      ⟨rfl, names, items, rest, list, derived, sentence, rfl⟩ | ⟨rfl, sentence⟩)
    · exact ⟨_, rest, Items.literal derived, sentence, rfl⟩
    · exact ⟨_, rest, Items.asNeeded list derived, sentence, by simp⟩
    · exact ⟨[], kinds, Items.nil, sentence, rfl⟩

/-- The inside of an `AS_NEEDED` list by its first kind. -/
theorem Phase.names_admits_cons {kind : TokenKind} {kinds : List TokenKind} :
    Phase.names.Admits (kind :: kinds) ↔
      kind = .literal ∧ Phase.names.Admits kinds ∨ kind = .rparen ∧ Phase.items.Admits kinds := by
  constructor
  · rintro ⟨names, items, rest, list, derived, sentence, whole⟩
    cases list with
    | nil =>
      cases whole
      exact Or.inr ⟨rfl, items, rest, derived, sentence, rfl⟩
    | @cons others list =>
      cases whole
      exact Or.inl ⟨rfl, others, items, rest, list, derived, sentence, rfl⟩
  · rintro (⟨rfl, names, items, rest, list, derived, sentence, rfl⟩ |
      ⟨rfl, items, rest, derived, sentence, rfl⟩)
    · exact ⟨_, items, rest, Names.cons list, derived, sentence, rfl⟩
    · exact ⟨[], items, rest, Names.nil, derived, sentence, rfl⟩

/-- A sentence has at least its `eof`. -/
theorem Grammar.Sentence.ne_nil {kinds : List TokenKind} (h : Sentence kinds) : kinds ≠ [] := by
  cases h with
  | eof => simp
  | comment _ => simp
  | newline _ => simp
  | directive directive _ => cases directive <;> simp

/-- Only behind the end may nothing follow. -/
theorem Phase.admits_nil {phase : Phase} : phase.Admits [] ↔ phase = .done := by
  cases phase with
  | top => simpa [Admits] using fun h : Sentence [] => h.ne_nil rfl
  | _ => simp [Admits]

/-- **A phase admits what its successors admit.**  The first kind of what may follow a phase leads
to another phase, which admits the rest. -/
theorem Phase.admits_cons {phase : Phase} {lexeme : Lexeme} {kinds : List TokenKind} :
    phase.Admits (lexeme.kind :: kinds) ↔
      ∃ next, phase.next lexeme = some next ∧ next.Admits kinds := by
  cases phase with
  | top =>
    rw [Admits, sentence_cons, Phase.next]
    split <;> simp_all [Admits]
  | format =>
    simp only [Admits, Phase.next]
    split <;> simp_all
  | formatOpen => by_cases kind : lexeme.kind = .literal <;> simp [Admits, Phase.next, kind]
  | formatRead operand => by_cases kind : lexeme.kind = .rparen <;> simp [Admits, Phase.next, kind]
  | block newline => by_cases kind : lexeme.kind = .lbrace <;> simp [Admits, Phase.next, kind]
  | blockOpen => by_cases kind : lexeme.kind = .literal <;> simp [Admits, Phase.next, kind]
  | blockRead operand =>
    simp only [Admits, Phase.next]
    split <;> simp_all
  | blockLastLine operand =>
    by_cases kind : lexeme.kind = .rbrace <;> simp [Admits, Phase.next, kind]
  | group => by_cases kind : lexeme.kind = .lparen <;> simp [Admits, Phase.next, kind]
  | items =>
    rw [items_admits_cons, Phase.next]
    split <;> simp_all
  | asNeeded => by_cases kind : lexeme.kind = .lparen <;> simp [Admits, Phase.next, kind]
  | names =>
    rw [names_admits_cons, Phase.next]
    split <;> simp_all
  | done => simp [Admits, Phase.next]

/-! ## The formats that a script selects -/

/-- The formats that are still to be closed, in order: the one being read, and those of the
directives ahead. -/
def Phase.operands (phase : Phase) (lexemes : List Lexeme) : List Lexeme :=
  match phase with
  | .format | .formatOpen | .block _ | .blockOpen =>
    (lexemes.find? (·.kind = .literal)).toList ++ formatOperands lexemes
  | .formatRead operand | .blockRead operand | .blockLastLine operand =>
    operand :: formatOperands lexemes
  | _ => formatOperands lexemes

/-- A lexeme that leads on selects the first of these formats or none. -/
theorem Phase.operands_cons {phase next : Phase} {lexeme : Lexeme} (rest : List Lexeme)
    (h : phase.next lexeme = some next) :
    phase.operands (lexeme :: rest) = (phase.selected? lexeme).toList ++ next.operands rest := by
  cases next_eq_some_iff.mp h with
  | between kind =>
    rcases kind with kind | kind <;> simp [operands, formatOperands, selected?, kind]
  | group kind =>
    rcases kind with kind | kind <;> simp [operands, formatOperands, selected?, kind]
  | _ kind => simp [operands, formatOperands, selected?, kind]

/-! ## Runs that come to the end -/

/-- A format is of use if it names a supported architecture. -/
def Lexeme.Supported (operand : Lexeme) : Prop :=
  ∃ arch, CpuArch.ofOutputFormat? operand.text = some arch

/-- A format can be selected exactly if it is supported. -/
theorem Contents.select_isOk_iff {contents : Contents} {operand : Lexeme} :
    (∃ selected, contents.select operand = .ok selected) ↔ operand.Supported := by
  unfold Lexeme.Supported select
  cases CpuArch.ofOutputFormat? operand.text <;> simp

/-- The effect of a lexeme fails only by selecting a format that is not supported. -/
theorem Phase.effect_isOk_iff {phase : Phase} {lexeme : Lexeme} {contents : Contents} :
    (∃ after, phase.effect lexeme contents = .ok after) ↔
      ∀ operand ∈ phase.selected? lexeme, operand.Supported := by
  cases selected : phase.selected? lexeme with
  | some operand => simp [effect_of_selected selected, Contents.select_isOk_iff]
  | none =>
    cases names : phase.needed? lexeme with
    | some needed => simp [effect_of_needed selected names]
    | none => simp [effect_of_none selected names]

/-- **A run comes to the end of a script** exactly if the phase admits the kinds ahead and every
format still to be closed is supported. -/
theorem Reading.run_done_iff (reading : Reading) (lexemes : List Lexeme) :
    (∃ after, reading.run lexemes = .ok after ∧ after.phase = .done) ↔
      reading.phase.Admits (lexemes.map (·.kind)) ∧
        ∀ operand ∈ reading.phase.operands lexemes, operand.Supported := by
  induction lexemes generalizing reading with
  | nil =>
    rw [List.map_nil, Phase.admits_nil]
    constructor
    · rintro ⟨after, same, done⟩
      cases same
      simp [done, Phase.operands, formatOperands]
    · rintro ⟨done, -⟩
      exact ⟨reading, rfl, done⟩
  | cons lexeme rest ih =>
    rw [List.map_cons, Phase.admits_cons]
    constructor
    · rintro ⟨after, run, done⟩
      obtain ⟨next, step, run⟩ := run_cons_eq_ok_iff.mp run
      obtain ⟨following, effect⟩ := step_eq_ok_iff.mp step
      obtain ⟨admits, supported⟩ := (ih next).mp ⟨after, run, done⟩
      have selected := Phase.effect_isOk_iff.mp ⟨_, effect⟩
      refine ⟨⟨next.phase, following, admits⟩, ?_⟩
      intro operand mem
      rw [Phase.operands_cons rest following, List.mem_append, Option.mem_toList] at mem
      exact mem.elim (selected operand) (supported operand)
    · rintro ⟨⟨phase, following, admits⟩, supported⟩
      rw [Phase.operands_cons rest following] at supported
      obtain ⟨contents, effect⟩ := Phase.effect_isOk_iff.mpr fun operand mem =>
        supported operand (List.mem_append_left _ (Option.mem_toList.mpr mem))
      have step : reading.step lexeme = .ok { toContents := contents, phase := phase } :=
        step_eq_ok_iff.mpr ⟨following, effect⟩
      obtain ⟨after, run, done⟩ := (ih { toContents := contents, phase := phase }).mpr
        ⟨admits, fun operand mem => supported operand (List.mem_append_right _ mem)⟩
      exact ⟨after, run_cons_eq_ok_iff.mpr ⟨_, step, run⟩, done⟩

/-- A run over lexemes that end in `eof` succeeds only by coming to the end. -/
theorem Reading.phase_eq_done_of_run {reading after : Reading} {lexemes : List Lexeme}
    (ended : Ended lexemes) (run : reading.run lexemes = .ok after) : after.phase = .done := by
  induction ended generalizing reading with
  | eof kind =>
    obtain ⟨next, step, last⟩ := run_cons_eq_ok_iff.mp run
    cases last
    have leads := Phase.next_eq_some_iff.mp (step_eq_ok_iff.mp step).1
    generalize reading.phase = start at leads
    generalize after.phase = finish at leads
    cases leads <;> simp_all
  | cons _ _ ih =>
    obtain ⟨next, _, run⟩ := run_cons_eq_ok_iff.mp run
    exact ih run

/-! ## The parser -/

/-- What a source that tokenizes is parsed to. -/
theorem parse_of_tokenize {source : Bytes} {lexemes : List Lexeme}
    (h : tokenize source = .ok lexemes) :
    parse source = ((Reading.run {} lexemes).map Reading.toContents).mapError ParseFault.link := by
  simp only [parse, h, parseLexemes_eq_run (ended_of_tokenize h)]

/-- A source is accepted if its run succeeds. -/
theorem parse_eq_ok_iff {source : Bytes} {lexemes : List Lexeme} {contents : Contents}
    (h : tokenize source = .ok lexemes) :
    parse source = .ok contents ↔
      ∃ after, Reading.run {} lexemes = .ok after ∧ after.toContents = contents := by
  rw [parse_of_tokenize h]
  cases run : Reading.run {} lexemes with
  | error failure =>
    show Except.error (ParseFault.link failure) = .ok contents ↔ _
    simp
  | ok after =>
    show Except.ok after.toContents = .ok contents ↔ _
    simp

/-- An invalid token leads nowhere. -/
theorem Phase.ne_invalid_of_next {phase following : Phase} {lexeme : Lexeme}
    (h : phase.next lexeme = some following) : lexeme.kind ≠ .invalid := by
  intro invalid
  cases phase <;> simp [next, invalid] at h

/-- A run takes no invalid token. -/
theorem Reading.ne_invalid_of_run {reading after : Reading} {lexemes : List Lexeme}
    (run : reading.run lexemes = .ok after) : ∀ lexeme ∈ lexemes, lexeme.kind ≠ .invalid := by
  induction lexemes generalizing reading with
  | nil => simp
  | cons first rest ih =>
    obtain ⟨next, step, run⟩ := run_cons_eq_ok_iff.mp run
    have valid := Phase.ne_invalid_of_next (step_eq_ok_iff.mp step).1
    exact List.forall_mem_cons.mpr ⟨valid, ih run⟩

/-- A source whose scan can be run over is accepted. -/
theorem parse_of_run {source : Bytes} {after : Reading}
    (run : Reading.run {} (scan source) = .ok after) : parse source = .ok after.toContents :=
  (parse_eq_ok_iff (tokenize_eq_scan (Reading.ne_invalid_of_run run))).mpr ⟨after, run, rfl⟩

/-- The names of the supported formats. -/
theorem Lexeme.supported_iff {operand : Lexeme} :
    operand.Supported ↔ operand.text ∈ ["elf64-x86-64", "elf64-littleaarch64"] := by
  rw [Lexeme.Supported, ← Option.isSome_iff_exists, CpuArch.ofOutputFormat?, List.find?_isSome]
  simp only [CpuArch.all, CpuArch.outputFormat, List.mem_cons, List.not_mem_nil, or_false,
    beq_iff_eq, exists_eq_or_imp, exists_eq_left, @eq_comm _ _ operand.text]

/-- **The parser accepts exactly its grammar.**  A source that tokenizes is accepted if and only if
the kinds of its lexemes are a sentence and each format that the sentence selects has one of the
two supported names. -/
theorem parse_isOk_iff_sentence {source : Bytes} {lexemes : List Lexeme}
    (tokens : tokenize source = .ok lexemes) :
    (∃ contents, parse source = .ok contents) ↔
      Sentence (lexemes.map (·.kind)) ∧
        ∀ operand ∈ formatOperands lexemes,
          operand.text ∈ ["elf64-x86-64", "elf64-littleaarch64"] := by
  simp only [← Lexeme.supported_iff]
  have done := Reading.run_done_iff {} lexemes
  rw [show Phase.operands _ lexemes = formatOperands lexemes from rfl] at done
  refine Iff.trans ?_ done
  constructor
  · rintro ⟨contents, accepted⟩
    obtain ⟨after, run, -⟩ := (parse_eq_ok_iff tokens).mp accepted
    exact ⟨after, run, Reading.phase_eq_done_of_run (ended_of_tokenize tokens) run⟩
  · rintro ⟨after, run, -⟩
    exact ⟨after.toContents, (parse_eq_ok_iff tokens).mpr ⟨after, run, rfl⟩⟩

/-- A script with a format in a block over three lines, and a group. -/
def blockScript : Bytes :=
  Text.Utf8.encode "OUTPUT_FORMAT\n\x7b elf64-x86-64\n\x7dINPUT(a)"

/-- The grammar decides on a script with a block. -/
theorem parse_isOk_iff_sentence_block :
    tokenize blockScript = .ok (scan blockScript) ∧
      ((∃ contents, parse blockScript = .ok contents) ↔
        Sentence ((scan blockScript).map (·.kind)) ∧
          ∀ operand ∈ formatOperands (scan blockScript),
            operand.text ∈ ["elf64-x86-64", "elf64-littleaarch64"]) := by
  have tokens : tokenize blockScript = .ok (scan blockScript) :=
    tokenize_eq_scan (by decide +kernel)
  exact ⟨tokens, parse_isOk_iff_sentence tokens⟩

end LinkScript
