import LinkScript.Proofs.Script.Acceptance
import Mathlib.Data.List.Basic
import Mathlib.Data.List.Forall2

/-!
# The entries of a script and its lexemes

No library is lost, doubled, moved or marked wrongly.  The parser pushes entries from two loops
into one list; here they are found again among the lexemes, without a parser.

* `libraries` are the literals that are no formats, and `depth` counts the open parentheses.  An
  entry belongs to a library (`EntryOf`) if it has its span and its text and is needed exactly at
  depth one.
* `Phase.depth` is the depth at which a phase stands (`Reading.depth_of_run`), and `Phase.named`
  are the libraries that a reading meets from a phase on, which are the entries it adds
  (`Reading.entries_of_run`).
* `Reading.cpuArch_of_run`: the architecture is that of the last format.
* `Account` is all of this together, and `account_of_parse` says it of an accepted source.
-/

namespace LinkScript

open Grammar

/-! ## Libraries and depth, without a parser -/

/-- The literals that name libraries: those that are not the format of a directive. -/
def libraries (lexemes : List Lexeme) : List Lexeme :=
  lexemes.filter fun lexeme => lexeme.kind = .literal ∧ lexeme ∉ formatOperands lexemes

/-- How many more parentheses are opened than closed. -/
def depth (lexemes : List Lexeme) : Int :=
  lexemes.countP (·.kind = .lparen) - lexemes.countP (·.kind = .rparen)

/-- Before the first lexeme no parenthesis is open. -/
@[simp] theorem depth_nil : depth [] = 0 := rfl

/-- The depth of a list is that of its first lexeme and that of the rest. -/
theorem depth_cons (lexeme : Lexeme) (rest : List Lexeme) :
    depth (lexeme :: rest) = depth [lexeme] + depth rest := by
  simp only [depth, List.countP_cons, List.countP_nil]
  omega

/-- How an entry belongs to the lexeme that names it. -/
structure EntryOf (source : Bytes) (lexemes : List Lexeme) (entry : Entry) (lexeme : Lexeme) :
    Prop where
  /-- The entry stands where the lexeme stands. -/
  span : entry.span = lexeme.span
  /-- Its path is the text of that span. -/
  path : entry.path = Text.Utf8.decode (lexeme.span.slice source)
  /-- It is needed in a group and not needed in an `AS_NEEDED` list. -/
  needed : ∀ before after, lexemes = before ++ lexeme :: after →
    (entry.needed = true ↔ depth before = 1) ∧ (entry.needed = false ↔ depth before = 2)

/-! ## The depth of a phase -/

namespace Phase

/-- The number of parentheses that are open in a phase. -/
def depth : Phase → Int
  | .formatOpen | .formatRead _ | .items | .asNeeded => 1
  | .names => 2
  | _ => 0

/-- At most two parentheses are open. -/
theorem depth_range (phase : Phase) : 0 ≤ phase.depth ∧ phase.depth ≤ 2 := by
  cases phase <;> simp [depth]

/-- A lexeme that leads on changes the depth as its parenthesis says. -/
theorem depth_of_next {phase following : Phase} {lexeme : Lexeme}
    (h : phase.next lexeme = some following) :
    following.depth = phase.depth + LinkScript.depth [lexeme] := by
  cases next_eq_some_iff.mp h with
  | between kind => rcases kind with kind | kind <;> simp [depth, LinkScript.depth, kind]
  | group kind => rcases kind with kind | kind <;> simp [depth, LinkScript.depth, kind]
  | _ kind => simp [depth, LinkScript.depth, kind]

end Phase

/-- Along a run the depth of the phase counts the open parentheses. -/
theorem Reading.depth_of_run {reading after : Reading} {lexemes : List Lexeme}
    (run : reading.run lexemes = .ok after) :
    after.phase.depth = reading.phase.depth + depth lexemes := by
  induction lexemes generalizing reading with
  | nil =>
    cases run
    simp
  | cons lexeme rest ih =>
    obtain ⟨next, step, run⟩ := run_cons_eq_ok_iff.mp run
    have first := Phase.depth_of_next (step_eq_ok_iff.mp step).1
    rw [ih run, first, depth_cons lexeme rest]
    omega

/-! ## The libraries that a reading meets -/

namespace Phase

/-- The libraries among the lexemes ahead of a phase, each with whether it is needed. -/
def named (phase : Phase) : List Lexeme → List (Lexeme × Bool)
  | [] => []
  | lexeme :: rest =>
    match phase.next lexeme with
    | none => []
    | some next => ((phase.needed? lexeme).map (lexeme, ·)).toList ++ next.named rest

variable {phase following : Phase} {lexeme : Lexeme} {rest : List Lexeme}

/-- A lexeme that leads on is the first library ahead, or none. -/
theorem named_cons (h : phase.next lexeme = some following) :
    phase.named (lexeme :: rest) =
      ((phase.needed? lexeme).map (lexeme, ·)).toList ++ following.named rest := by
  simp only [named, h]

/-- A library is needed exactly at depth one, and stands at depth two otherwise. -/
theorem depth_of_needed? {needed : Bool} (h : phase.needed? lexeme = some needed) :
    phase.depth = if needed then 1 else 2 := by
  cases phase <;> simp_all [needed?, depth]

/-- Each library ahead stands among the lexemes, at the depth that makes it needed or not. -/
theorem split_of_mem_named {lexemes : List Lexeme} {library : Lexeme} {needed : Bool}
    (h : (library, needed) ∈ phase.named lexemes) :
    ∃ before after, lexemes = before ++ library :: after ∧
      phase.depth + LinkScript.depth before = if needed then 1 else 2 := by
  induction lexemes generalizing phase with
  | nil => simp [named] at h
  | cons lexeme rest ih =>
    cases leads : phase.next lexeme with
    | none => simp [named, leads] at h
    | some following =>
      rw [named_cons leads, List.mem_append] at h
      rcases h with here | behind
      · simp only [Option.mem_toList, Option.map_eq_some_iff, Prod.mk.injEq] at here
        obtain ⟨_, names, rfl, rfl⟩ := here
        refine ⟨[], rest, rfl, ?_⟩
        rw [depth_nil, Int.add_zero, depth_of_needed? names]
      · obtain ⟨before, after, rfl, level⟩ := ih behind
        refine ⟨lexeme :: before, after, rfl, ?_⟩
        have first := depth_of_next leads
        rw [depth_cons lexeme before, ← level, first]
        omega

end Phase

/-- What a lexeme adds to the entries is the library it names. -/
theorem Phase.entries_of_effect {phase : Phase} {lexeme : Lexeme} {contents after : Contents}
    (h : phase.effect lexeme contents = .ok after) :
    after.entries = contents.entries ++
      ((phase.needed? lexeme).map (lexeme, ·)).toList.map fun named => named.1.entry named.2 := by
  rcases effect_cases h with ⟨_, _, _, names, _, rfl⟩ | ⟨needed, _, names, rfl⟩ | ⟨_, names, rfl⟩
  · simp [names]
  · simp [names, Contents.add]
  · simp [names]

/-- A run adds the libraries that it meets, in order. -/
theorem Reading.entries_of_run {reading after : Reading} {lexemes : List Lexeme}
    (run : reading.run lexemes = .ok after) :
    after.entries = reading.entries ++
      (reading.phase.named lexemes).map fun named => named.1.entry named.2 := by
  induction lexemes generalizing reading with
  | nil =>
    cases run
    simp [Phase.named]
  | cons lexeme rest ih =>
    obtain ⟨next, step, run⟩ := run_cons_eq_ok_iff.mp run
    obtain ⟨leads, effect⟩ := step_eq_ok_iff.mp step
    rw [ih run, Phase.entries_of_effect effect, Phase.named_cons leads, List.map_append,
      List.append_assoc]

/-! ## The libraries that a reading meets are all of them

A literal ahead is a library unless it is read as a format.  That the two can be told apart by
membership alone rests on no lexeme standing twice, the format that a phase holds included. -/

/-- The formats of a list of lexemes are among them. -/
theorem mem_of_mem_formatOperands {lexemes : List Lexeme} {operand : Lexeme}
    (h : operand ∈ formatOperands lexemes) : operand ∈ lexemes := by
  induction lexemes with
  | nil => simp [formatOperands] at h
  | cons lexeme rest ih =>
    rw [formatOperands] at h
    split at h
    · rcases List.mem_append.mp h with here | behind
      · exact List.mem_cons_of_mem _ (List.mem_of_find?_eq_some (Option.mem_toList.mp here))
      · exact List.mem_cons_of_mem _ (ih behind)
    · exact List.mem_cons_of_mem _ (ih h)

namespace Phase

/-- The format that has been read and is not closed yet. -/
def held? : Phase → Option Lexeme
  | .formatRead operand | .blockRead operand | .blockLastLine operand => some operand
  | _ => none

variable {phase following : Phase} {lexeme operand : Lexeme} {rest : List Lexeme}

/-- Only the format held is selected. -/
theorem held?_of_selected (h : phase.selected? lexeme = some operand) :
    phase.held? = some operand := by
  cases phase <;> simp_all [selected?, held?]

/-- The format held is still to be closed. -/
theorem mem_operands_of_held (h : phase.held? = some operand) : operand ∈ phase.operands rest := by
  cases phase <;> simp_all [operands, held?]

/-- Where no format is held, the formats still to be closed are ahead. -/
theorem mem_of_mem_operands (h : phase.held? = none) (mem : operand ∈ phase.operands rest) :
    operand ∈ rest := by
  cases phase with
  | formatRead _ | blockRead _ | blockLastLine _ => simp [held?] at h
  | format | formatOpen | block _ | blockOpen =>
    rcases List.mem_append.mp mem with here | behind
    · exact List.mem_of_find?_eq_some (Option.mem_toList.mp here)
    · exact mem_of_mem_formatOperands behind
  | _ => exact mem_of_mem_formatOperands mem

/-- A lexeme that leads on is held afterwards, or what was held is held still, or nothing is. -/
theorem held?_of_next (h : phase.next lexeme = some following) :
    following.held? = some lexeme ∨ following.held? = phase.held? ∨ following.held? = none := by
  cases next_eq_some_iff.mp h <;> simp [held?]

/-- A literal that leads on is a library, or it is a format and held afterwards. -/
theorem library_or_format (h : phase.next lexeme = some following) (kind : lexeme.kind = .literal) :
    (∃ needed, phase.needed? lexeme = some needed ∧ phase.selected? lexeme = none ∧
      following.held? = none) ∨
    phase.needed? lexeme = none ∧ following.held? = some lexeme := by
  cases next_eq_some_iff.mp h <;> simp_all [needed?, selected?, held?]

/-- The libraries that a reading meets are the literals ahead that it does not take as formats. -/
theorem named_eq_filter {lexemes : List Lexeme} (admits : phase.Admits (lexemes.map (·.kind)))
    (nodup : (phase.held?.toList ++ lexemes).Nodup) :
    (phase.named lexemes).map Prod.fst =
      lexemes.filter fun lexeme => lexeme.kind = .literal ∧ lexeme ∉ phase.operands lexemes := by
  induction lexemes generalizing phase with
  | nil => rfl
  | cons lexeme rest ih =>
    obtain ⟨following, leads, admits⟩ := admits_cons.mp admits
    obtain ⟨-, alone, apart⟩ := List.nodup_append.mp nodup
    obtain ⟨fresh, rest_nodup⟩ := List.nodup_cons.mp alone
    -- the format that this lexeme selects does not stand behind it
    have selected : ∀ found ∈ rest, found ∉ (phase.selected? lexeme).toList := by
      intro found mem here
      have held := held?_of_selected (Option.mem_toList.mp here)
      exact apart found (by simp [held]) found (List.mem_cons_of_mem _ mem) rfl
    have behind : (following.held?.toList ++ rest).Nodup := by
      rcases held?_of_next leads with held | held | held
      · simpa [held] using alone
      · rw [held]
        exact nodup.sublist (List.Sublist.append (List.Sublist.refl _) (List.sublist_cons_self _ _))
      · simpa [held] using rest_nodup
    have tail : (rest.filter fun found => found.kind = .literal ∧
        found ∉ phase.operands (lexeme :: rest)) = (following.named rest).map Prod.fst := by
      rw [ih admits behind, operands_cons rest leads]
      apply List.filter_congr
      intro found mem
      simp [selected found mem]
    rw [named_cons leads, List.map_append, ← tail]
    by_cases kind : lexeme.kind = .literal
    · rcases library_or_format leads kind with ⟨needed, names, unselected, free⟩ | ⟨unnamed, held⟩
      · have outside : lexeme ∉ phase.operands (lexeme :: rest) := by
          rw [operands_cons rest leads, unselected]
          intro mem
          exact fresh (mem_of_mem_operands free mem)
        simp [names, kind, outside]
      · have inside : lexeme ∈ phase.operands (lexeme :: rest) := by
          rw [operands_cons rest leads]
          exact List.mem_append_right _ (mem_operands_of_held held)
        simp [unnamed, inside]
    · simp [needed?_of_ne_literal kind, kind]

end Phase

/-! ## Formats -/

/-- How many formats of the directives begun are still to be read. -/
def Phase.unread : Phase → Nat
  | .format | .formatOpen | .block _ | .blockOpen => 1
  | _ => 0

/-- Each `OUTPUT_FORMAT` has a format of its own. -/
theorem Phase.length_operands {phase : Phase} {lexemes : List Lexeme}
    (admits : phase.Admits (lexemes.map (·.kind))) :
    (phase.operands lexemes).length =
      lexemes.countP (·.kind = .command .outputFormat) + phase.unread +
        phase.held?.toList.length := by
  induction lexemes generalizing phase with
  | nil => simp [admits_nil.mp admits, operands, unread, held?, formatOperands]
  | cons lexeme rest ih =>
    obtain ⟨following, leads, admits⟩ := admits_cons.mp admits
    rw [operands_cons rest leads, List.length_append, ih admits, List.countP_cons]
    cases next_eq_some_iff.mp leads with
    | between kind => rcases kind with kind | kind <;> simp [selected?, unread, held?, kind]
    | group kind => rcases kind with kind | kind <;> simp [selected?, unread, held?, kind]
    | _ kind => simp [selected?, unread, held?, kind] <;> omega

/-- The literals ahead are libraries, or formats of directives ahead or begun. -/
theorem Phase.countP_literal {phase : Phase} {lexemes : List Lexeme}
    (admits : phase.Admits (lexemes.map (·.kind))) :
    lexemes.countP (·.kind = .literal) = (phase.named lexemes).length +
      lexemes.countP (·.kind = .command .outputFormat) + phase.unread := by
  induction lexemes generalizing phase with
  | nil => simp [admits_nil.mp admits, named, unread]
  | cons lexeme rest ih =>
    obtain ⟨following, leads, admits⟩ := admits_cons.mp admits
    rw [named_cons leads, List.length_append, List.countP_cons, ih admits, List.countP_cons]
    cases next_eq_some_iff.mp leads with
    | between kind => rcases kind with kind | kind <;> simp [needed?, unread, kind]
    | group kind => rcases kind with kind | kind <;> simp [needed?, unread, kind]
    | _ kind => simp [needed?, unread, kind] <;> omega

/-- The architecture that the last of some formats names. -/
def lastArch (operands : List Lexeme) : Option CpuArch :=
  operands.getLast?.bind fun operand => CpuArch.ofOutputFormat? operand.text

/-- The last of some formats that are all supported names an architecture, unless there is none. -/
theorem lastArch_eq_none_iff {operands : List Lexeme}
    (supported : ∀ operand ∈ operands, operand.Supported) :
    lastArch operands = none ↔ operands = [] := by
  unfold lastArch
  cases last : operands.getLast? with
  | none => simpa using last
  | some operand =>
    have mem := List.mem_of_getLast? last
    obtain ⟨arch, found⟩ := supported operand mem
    simp [found, List.ne_nil_of_mem mem]

/-- What comes behind decides, if it names an architecture at all. -/
theorem lastArch_append {front back : List Lexeme}
    (supported : ∀ operand ∈ back, operand.Supported) :
    lastArch (front ++ back) = (lastArch back).or (lastArch front) := by
  unfold lastArch
  rw [List.getLast?_append]
  cases last : back.getLast? with
  | none => simp
  | some operand =>
    obtain ⟨arch, found⟩ := supported operand (List.mem_of_getLast? last)
    simp [found]

/-- A lexeme that selects a format leaves its architecture, and any other the one before. -/
theorem Phase.cpuArch_of_effect {phase : Phase} {lexeme : Lexeme} {contents after : Contents}
    (h : phase.effect lexeme contents = .ok after) :
    after.cpuArch = (lastArch (phase.selected? lexeme).toList).or contents.cpuArch := by
  rcases effect_cases h with ⟨_, _, selected, _, found, rfl⟩ | ⟨_, unselected, _, rfl⟩ |
    ⟨unselected, _, rfl⟩
  · simp [selected, lastArch, found]
  · simp [unselected, lastArch, Contents.add]
  · simp [unselected, lastArch]

/-- A run leaves the architecture of the last format that it closes, or the one it began with. -/
theorem Reading.cpuArch_of_run {reading after : Reading} {lexemes : List Lexeme}
    (run : reading.run lexemes = .ok after) (done : after.phase = .done) :
    after.cpuArch = (lastArch (reading.phase.operands lexemes)).or reading.cpuArch := by
  induction lexemes generalizing reading with
  | nil =>
    cases run
    simp [done, Phase.operands, formatOperands, lastArch]
  | cons lexeme rest ih =>
    obtain ⟨next, step, run⟩ := run_cons_eq_ok_iff.mp run
    obtain ⟨leads, effect⟩ := step_eq_ok_iff.mp step
    have supported := ((Reading.run_done_iff next rest).mp ⟨after, run, done⟩).2
    rw [ih run, Phase.cpuArch_of_effect effect, Phase.operands_cons rest leads,
      lastArch_append supported, Option.or_assoc]

/-! ## The whole script -/

/-- What the contents read from a source have to do with its lexemes. -/
structure Account (source : Bytes) (lexemes : List Lexeme) (contents : Contents) : Prop where
  /-- One entry for each library, in order. -/
  entries : List.Forall₂ (EntryOf source lexemes) contents.entries (libraries lexemes)
  /-- Each directive that takes a format takes one literal, and the libraries are the others. -/
  count : contents.entries.length + lexemes.countP (·.kind = .command .outputFormat) =
    lexemes.countP (·.kind = .literal)
  /-- No span is empty or reaches behind the source. -/
  inside : ∀ entry ∈ contents.entries,
    entry.span.start < entry.span.stop ∧ entry.span.stop ≤ source.length
  /-- The spans ascend without overlapping. -/
  ascending : contents.entries.Pairwise fun a b => a.span.stop ≤ b.span.start
  /-- Parentheses are at most two deep and never closed too early. -/
  depth : ∀ before, before <+: lexemes → 0 ≤ depth before ∧ depth before ≤ 2
  /-- Every parenthesis is closed. -/
  closed : LinkScript.depth lexemes = 0
  /-- The architecture is that of the last format. -/
  cpuArch : contents.cpuArch = lastArch (formatOperands lexemes)
  /-- There is none without an `OUTPUT_FORMAT`. -/
  cpuArch_none : contents.cpuArch = none ↔
    ∀ lexeme ∈ lexemes, lexeme.kind ≠ .command .outputFormat

section

variable {source : Bytes} {lexemes : List Lexeme} {contents : Contents} {after : Reading}

/-- An accepted source tokenizes, and its run comes to the end. -/
theorem run_of_parse (accepted : parse source = .ok contents) :
    ∃ lexemes after, tokenize source = .ok lexemes ∧ Reading.run {} lexemes = .ok after ∧
      after.phase = .done ∧ after.toContents = contents := by
  cases tokens : tokenize source with
  | error failure => simp [parse, tokens] at accepted
  | ok lexemes =>
    obtain ⟨after, run, same⟩ := (parse_eq_ok_iff tokens).mp accepted
    have done := Reading.phase_eq_done_of_run (ended_of_tokenize tokens) run
    exact ⟨lexemes, after, rfl, run, done, same⟩

/-- Where a run succeeds, no more than two parentheses are open and none is closed too early. -/
theorem depth_of_prefix (run : Reading.run {} lexemes = .ok after) {before : List Lexeme}
    (front : before <+: lexemes) : 0 ≤ depth before ∧ depth before ≤ 2 := by
  obtain ⟨behind, rfl⟩ := front
  obtain ⟨reached, front, -⟩ := Reading.run_append_eq_ok_iff.mp run
  have level := Reading.depth_of_run front
  have range := reached.phase.depth_range
  rw [level] at range
  simpa [Phase.depth] using range

/-- The libraries that the run over a whole script meets. -/
theorem libraries_eq_named (tokens : tokenize source = .ok lexemes)
    (admits : Phase.top.Admits (lexemes.map (·.kind))) :
    libraries lexemes = (Phase.top.named lexemes).map Prod.fst := by
  have nodup : lexemes.Nodup := scan_of_tokenize tokens ▸ (scan_tiled source).nodup
  rw [Phase.named_eq_filter admits (by simpa [Phase.held?] using nodup)]
  rfl

/-- The entry of each library that a run meets belongs to it. -/
theorem entryOf_of_mem_named (tokens : tokenize source = .ok lexemes) {library : Lexeme}
    {needed : Bool} (h : (library, needed) ∈ Phase.top.named lexemes) :
    EntryOf source lexemes (library.entry needed) library := by
  have whole := scan_of_tokenize tokens
  have nodup : lexemes.Nodup := whole ▸ (scan_tiled source).nodup
  obtain ⟨front, back, place, level⟩ := Phase.split_of_mem_named h
  refine ⟨rfl, ?_, ?_⟩
  · have bytes := (scan_split (whole.symm.trans place)).2.2.2.2
    rw [← bytes]
    rfl
  · intro before after other
    rw [place] at nodup other
    obtain ⟨-, alone, apart⟩ := List.nodup_append.mp nodup
    -- the library stands in one place only
    have once : library ∉ front ∧ library ∉ back :=
      ⟨fun mem => apart library mem library List.mem_cons_self rfl, (List.nodup_cons.mp alone).1⟩
    obtain ⟨same, -, -⟩ := (List.append_cons_inj_of_notMem once.1 once.2).mp other
    have opened : depth before = if needed then 1 else 2 := by
      rw [← same, ← level]
      simp [Phase.depth]
    cases needed <;> simp [Lexeme.entry, opened]

/-- A library of a scan has a span that is not empty, inside the source. -/
theorem library_inside (tokens : tokenize source = .ok lexemes) {library : Lexeme}
    (h : library ∈ libraries lexemes) :
    library.span.start < library.span.stop ∧ library.span.stop ≤ source.length := by
  have kind : library.kind = .literal := by
    have literal := (List.mem_filter.mp h).2
    simp only [decide_eq_true_eq] at literal
    exact literal.1
  have mem : library ∈ scan source := scan_of_tokenize tokens ▸ (List.mem_filter.mp h).1
  obtain ⟨before, behind, place⟩ := List.append_of_mem mem
  exact ⟨scan_start_lt_stop mem (by simp [kind]), (scan_split place).2.2.1⟩

/-- The libraries of a scan ascend without overlapping. -/
theorem pairwise_libraries (tokens : tokenize source = .ok lexemes) :
    ((libraries lexemes).map (·.span)).Pairwise fun a b => a.stop ≤ b.start := by
  rw [scan_of_tokenize tokens, List.pairwise_map]
  exact ((scan_tiled source).pairwise.imp fun order => order.2).filter _

end

/-- **No library is lost, doubled, moved or marked wrongly.**  The contents of an accepted source
account for its lexemes: each literal that is no format has its entry, with its span, its text
and its depth, and the architecture is that of the last format. -/
theorem account_of_parse {source : Bytes} {contents : Contents}
    (accepted : parse source = .ok contents) :
    ∃ lexemes, tokenize source = .ok lexemes ∧ Account source lexemes contents := by
  obtain ⟨lexemes, after, tokens, run, done, rfl⟩ := run_of_parse accepted
  obtain ⟨admits, supported⟩ : Phase.top.Admits (lexemes.map (·.kind)) ∧
      ∀ operand ∈ formatOperands lexemes, operand.Supported :=
    (Reading.run_done_iff {} lexemes).mp ⟨after, run, done⟩
  have entries : after.entries = (Phase.top.named lexemes).map fun named =>
      named.1.entry named.2 := by
    simpa using Reading.entries_of_run run
  have arch : after.cpuArch = lastArch (formatOperands lexemes) := by
    simpa [Phase.operands] using Reading.cpuArch_of_run run done
  have libs := libraries_eq_named tokens admits
  have spans : after.entries.map (·.span) = (libraries lexemes).map (·.span) := by
    rw [entries, libs, List.map_map, List.map_map]
    rfl
  refine ⟨lexemes, tokens, ?_, ?_, ?_, ?_, ?_, ?_, arch, ?_⟩
  · rw [entries, libs, List.forall₂_map_left_iff, List.forall₂_map_right_iff, List.forall₂_same]
    intro named mem
    exact entryOf_of_mem_named tokens mem
  · have count := Phase.countP_literal admits
    rw [entries, List.length_map, count]
    rfl
  · intro entry mem
    obtain ⟨library, found, span⟩ := List.mem_map.mp (spans ▸ List.mem_map_of_mem mem)
    rw [← span]
    exact library_inside tokens found
  · have ascending := pairwise_libraries tokens
    rw [← spans] at ascending
    exact List.pairwise_map.mp ascending
  · intro before front
    exact depth_of_prefix run front
  · have closed := Reading.depth_of_run run
    simpa [done, Phase.depth] using closed.symm
  · have count : (formatOperands lexemes).length =
        lexemes.countP (·.kind = .command .outputFormat) := by
      simpa [Phase.operands, Phase.unread, Phase.held?] using Phase.length_operands admits
    rw [arch, lastArch_eq_none_iff supported, ← List.length_eq_zero_iff, count,
      List.countP_eq_zero]
    simp

/-- A script with a format and a group in which one library is needed and one is not. -/
def groupScript : Bytes :=
  Text.Utf8.encode "OUTPUT_FORMAT(elf64-x86-64)\nGROUP(a AS_NEEDED(b))"

/-- The contents of a script with a group account for its lexemes. -/
theorem account_of_parse_group :
    parse groupScript = .ok ⟨some .x86_64, [⟨"a", true, ⟨34, 35⟩⟩, ⟨"b", false, ⟨46, 47⟩⟩]⟩ ∧
      ∃ lexemes, tokenize groupScript = .ok lexemes ∧ Account groupScript lexemes
        ⟨some .x86_64, [⟨"a", true, ⟨34, 35⟩⟩, ⟨"b", false, ⟨46, 47⟩⟩]⟩ := by
  have accepted : parse groupScript =
      .ok ⟨some .x86_64, [⟨"a", true, ⟨34, 35⟩⟩, ⟨"b", false, ⟨46, 47⟩⟩]⟩ := by
    decide +kernel
  exact ⟨accepted, account_of_parse accepted⟩

end LinkScript
