import LinkScript.Proofs.Script.Alike
import LinkScript.Proofs.Token.Overwrite

/-!
# One keyword of groups for the other

`INPUT` and `GROUP` are spelled with as many bytes, and they open the same directive.  So any of
them can be written over with the other one where they stand, in the right places and in wrong ones.

* `Lexeme.regrouped` is a keyword of groups with the other one in its place; a byte order mark in
  front of it stays.  It is a keyword of groups again (`Lexeme.NamesGroup.regrouped`).
* `Respelling.groups` rewrites chosen keywords.  One literal stands wherever another one can
  (`LiteralRun.follows`), so this is a respelling.  It changes no length, so nothing moves
  (`scan_regroup`).
* `parse_regroup` says what becomes of the outcome.  Only the text of a rewritten keyword that is
  itself to blame differs.
-/

namespace LinkScript

open Text.Utf8

/-! ## The other keyword -/

/-- The keywords that open a group. -/
def Command.groups : List Command := [input, group]

/-- The other keyword of groups for either of them. -/
def Command.regrouped : Command → Command
  | input => group
  | group => input
  | keyword => keyword

/-- The lexeme as a keyword, whose name is written over its last bytes. -/
def Lexeme.renamed (lexeme : Lexeme) (keyword : Command) : Lexeme :=
  { lexeme with
    kind := .command keyword
    bytes := lexeme.bytes.take (lexeme.bytes.length - (encode keyword.name).length) ++
      encode keyword.name }

/-- The lexeme with the other keyword of groups written over it, if it is one of them. -/
def Lexeme.regrouped (lexeme : Lexeme) : Lexeme :=
  match lexeme.kind with
  | .command keyword =>
    if keyword ∈ Command.groups then lexeme.renamed keyword.regrouped else lexeme
  | _ => lexeme

/-- The lexeme rewritten if it is chosen. -/
def Lexeme.regroup (chosen : List Lexeme) (lexeme : Lexeme) : Lexeme :=
  if lexeme ∈ chosen then lexeme.regrouped else lexeme

/-- Whether a lexeme is a keyword of groups, in kind and in bytes. -/
def Lexeme.NamesGroup (lexeme : Lexeme) : Prop :=
  ∃ keyword ∈ Command.groups, lexeme.kind = .command keyword ∧ Spells keyword lexeme.bytes

/-- The other keyword of groups is one of them. -/
theorem Command.regrouped_mem_groups :
    ∀ keyword ∈ groups, keyword.regrouped ∈ groups := by
  decide

/-- The keywords of groups are equally long. -/
theorem Command.length_regrouped_name :
    ∀ keyword ∈ groups, (encode keyword.regrouped.name).length = (encode keyword.name).length := by
  decide

section

variable {lexeme : Lexeme} {keyword other : Command}

/-- A keyword that is replaced keeps its span. -/
@[simp] theorem Lexeme.span_regrouped (lexeme : Lexeme) :
    lexeme.regrouped.span = lexeme.span := by
  unfold regrouped
  repeat' split
  all_goals rfl

/-- A keyword that is replaced keeps its position. -/
@[simp] theorem Lexeme.position_regrouped (lexeme : Lexeme) :
    lexeme.regrouped.position = lexeme.position := by
  unfold regrouped
  repeat' split
  all_goals rfl

/-- Every lexeme keeps its span, whichever keywords are replaced. -/
@[simp] theorem Lexeme.span_regroup (chosen : List Lexeme) (lexeme : Lexeme) :
    (lexeme.regroup chosen).span = lexeme.span := by
  unfold regroup
  split <;> simp

/-- Every lexeme keeps its position, whichever keywords are replaced. -/
@[simp] theorem Lexeme.position_regroup (chosen : List Lexeme) (lexeme : Lexeme) :
    (lexeme.regroup chosen).position = lexeme.position := by
  unfold regroup
  split <;> simp

/-- A name written over another one of its length spells the new keyword, behind a byte order mark
if there was one. -/
theorem Spells.renamed (spells : Spells keyword lexeme.bytes)
    (length : (encode other.name).length = (encode keyword.name).length) :
    Spells other (lexeme.renamed other).bytes ∧
      (lexeme.renamed other).bytes.length = lexeme.bytes.length := by
  unfold Lexeme.renamed
  dsimp only
  rcases spells with plain | marked
  · have none : lexeme.bytes.take (lexeme.bytes.length - (encode other.name).length) = [] := by
      rw [plain, length, Nat.sub_self, List.take_zero]
    rw [none, List.nil_append, length, plain]
    exact ⟨Or.inl rfl, rfl⟩
  · have mark : lexeme.bytes.take (lexeme.bytes.length - (encode other.name).length) =
        byteOrderMark := by
      rw [marked, length, List.length_append, Nat.add_sub_cancel_right, List.take_left]
    rw [mark, List.length_append, length, marked, List.length_append]
    exact ⟨Or.inr rfl, rfl⟩

namespace Lexeme.NamesGroup

/-- The other keyword of groups is written over a keyword of groups and spelled by it, in as many
bytes. -/
theorem exists_regrouped (names : lexeme.NamesGroup) :
    ∃ keyword ∈ Command.groups,
      (lexeme.kind = .command keyword ∧ Spells keyword lexeme.bytes) ∧
      (lexeme.regrouped.kind = .command keyword.regrouped ∧
        Spells keyword.regrouped lexeme.regrouped.bytes) ∧
      lexeme.regrouped.bytes.length = lexeme.bytes.length := by
  obtain ⟨keyword, group, kind, spells⟩ := names
  have same : lexeme.regrouped = lexeme.renamed keyword.regrouped := by
    simp only [regrouped, kind, if_pos group]
  obtain ⟨spells', length⟩ := spells.renamed (Command.length_regrouped_name keyword group)
  rw [same]
  exact ⟨keyword, group, ⟨kind, spells⟩, ⟨rfl, spells'⟩, length⟩

/-- **A keyword of groups that is rewritten is one again.** -/
theorem regrouped (names : lexeme.NamesGroup) : lexeme.regrouped.NamesGroup := by
  obtain ⟨keyword, group, -, found, -⟩ := names.exists_regrouped
  exact ⟨keyword.regrouped, Command.regrouped_mem_groups keyword group, found⟩

/-- A keyword that names a group is one of the two. -/
theorem kind_mem (names : lexeme.NamesGroup) :
    lexeme.kind ∈ [.command .input, .command .group] := by
  obtain ⟨keyword, group, kind, -⟩ := names
  rw [kind]
  exact List.mem_map_of_mem (f := TokenKind.command) group

/-- A keyword that names a group is no literal. -/
theorem kind_ne_literal (names : lexeme.NamesGroup) : lexeme.kind ≠ .literal := by
  intro literal
  have group := names.kind_mem
  rw [literal] at group
  exact absurd group (by decide)

end Lexeme.NamesGroup

end

section

variable {chosen : List Lexeme} (names : ∀ lexeme ∈ chosen, lexeme.NamesGroup)
include names

/-- **A rewritten lexeme is read alike.** -/
theorem Lexeme.alike_regroup (lexeme : Lexeme) : lexeme.Alike (lexeme.regroup chosen) := by
  unfold regroup
  split
  · next mem =>
    refine ⟨Or.inr ⟨(names lexeme mem).kind_mem, (names lexeme mem).regrouped.kind_mem⟩, ?_⟩
    intro literal
    exact absurd literal (names lexeme mem).kind_ne_literal
  · exact ⟨Or.inl rfl, fun _ => rfl⟩

/-- Every lexeme keeps its number of bytes, as the two keywords have the same. -/
theorem Lexeme.length_regroup (lexeme : Lexeme) :
    (lexeme.regroup chosen).bytes.length = lexeme.bytes.length := by
  unfold regroup
  split
  · next mem =>
    obtain ⟨_, -, -, -, length⟩ := (names lexeme mem).exists_regrouped
    exact length
  · rfl

end

/-! ## Rewritten keywords as a respelling -/

/-- The names of keywords are runs of bytes as in literals, with a byte order mark and without. -/
theorem Spells.run {keyword : Command} {bytes : Bytes} (spells : Spells keyword bytes) :
    LiteralRun bytes ∧ bytes ≠ [] := by
  rcases spells with rfl | rfl <;> cases keyword <;>
    exact ⟨⟨by decide +kernel, by decide +kernel, by decide +kernel⟩, by decide +kernel⟩

/-- What can stand before a literal can stand before another one. -/
theorem LiteralRun.follows {run other : Bytes} (first : LiteralRun run) (second : LiteralRun other)
    (some : run ≠ []) (some' : other ≠ []) (rest rest' : Bytes) :
    Follows (run ++ rest) (other ++ rest') := by
  have head (front back : Bytes) (nonempty : front ≠ []) : (front ++ back).head? = front.head? :=
    List.head?_append_of_ne_nil front nonempty
  refine ⟨?_, ?_, ?_⟩
  · intro nothing
    exact absurd (List.append_eq_nil_iff.mp nothing).1 some
  · intro lineFeed
    rw [head other rest' some'] at lineFeed
    exact absurd (second.first _ lineFeed) (by decide)
  · -- nothing that ends a literal begins one
    rintro (nothing | ⟨byte, stops, starts⟩ | ⟨more, whole⟩)
    · exact absurd (List.append_eq_nil_iff.mp nothing).1 some
    · rw [head run rest some] at starts
      have plain := first.first byte starts
      simp only [List.mem_cons, List.not_mem_nil, or_false] at stops
      rcases stops with rfl | rfl | rfl | rfl <;> exact absurd plain (by decide)
    · have starts := head run rest some
      rw [← whole] at starts
      exact absurd (first.first _ starts.symm) (by decide)

/-- Chosen keywords of groups rewritten, and all other tokens as they are. -/
def Respelling.groups (chosen : List Lexeme) (names : ∀ lexeme ∈ chosen, lexeme.NamesGroup) :
    Respelling where
  kind lexeme := (lexeme.regroup chosen).kind
  bytes lexeme := (lexeme.regroup chosen).bytes
  shape {lexeme rest other} shape follows := by
    unfold Lexeme.regroup
    split
    · next mem =>
      obtain ⟨keyword, -, ⟨kind, -⟩, ⟨kind', spells'⟩, -⟩ := (names lexeme mem).exists_regrouped
      obtain ⟨run', some'⟩ := spells'.run
      rw [kind] at shape
      rw [kind']
      exact ⟨⟨some', run', follows.closes shape.1.behind⟩, spells'⟩
    · exact shape.of_follows follows
  follows {lexeme rest other} inner shape _ := by
    unfold Lexeme.regroup
    split
    · next mem =>
      obtain ⟨_, -, ⟨-, spells⟩, ⟨-, spells'⟩, -⟩ := (names lexeme mem).exists_regrouped
      exact spells.run.1.follows spells'.run.1 spells.run.2 spells'.run.2 rest other
    · exact shape.follows inner other
  eof_iff {lexeme} := ((lexeme.alike_regroup names).kind_eq_iff (by decide)).symm
  newline_iff {lexeme} := ((lexeme.alike_regroup names).kind_eq_iff (by decide)).symm
  length_le lexeme := Nat.le_of_eq (lexeme.length_regroup names).symm
  length_eq {lexeme} _ := lexeme.length_regroup names

/-- A source with the other keywords of groups over chosen ones. -/
def regroup (chosen : List Lexeme) (source : Bytes) : Bytes :=
  overwrite (·.regrouped.bytes) chosen source

/-! ## Tokens -/

section

variable {source : Bytes} {lexemes chosen : List Lexeme}

/-- **The scan with rewritten keywords**: each of them is rewritten where it stands. -/
theorem scan_regroup (names : ∀ lexeme ∈ chosen, lexeme.NamesGroup)
    (among : chosen ⊆ scan source) :
    scan (regroup chosen source) = (scan source).map (Lexeme.regroup chosen) := by
  have agree : ∀ lexeme ∈ scan source, (Respelling.groups chosen names).bytes lexeme =
      if lexeme ∈ chosen then lexeme.regrouped.bytes else lexeme.bytes := by
    intro lexeme _
    exact apply_ite Lexeme.bytes _ _ _
  rw [regroup, scan_overwrite among agree fun lexeme => lexeme.length_regroup names]
  apply List.map_congr_left
  intro lexeme _
  rw [← lexeme.span_regroup chosen, ← lexeme.position_regroup chosen]
  rfl

/-- With rewritten keywords a source tokenizes if it did. -/
theorem tokenize_regroup (tokens : tokenize source = .ok lexemes)
    (names : ∀ lexeme ∈ chosen, lexeme.NamesGroup) (among : chosen ⊆ lexemes) :
    tokenize (regroup chosen source) = .ok (lexemes.map (Lexeme.regroup chosen)) := by
  have whole := scan_of_tokenize tokens
  rw [whole] at among
  have valid (lexeme : Lexeme) : (lexeme.regroup chosen).kind = .invalid ↔ lexeme.kind = .invalid :=
    ((lexeme.alike_regroup names).kind_eq_iff (by decide)).symm
  rw [tokenize_of_scan_eq_map (scan_regroup names among) fun lexeme _ => valid lexeme, tokens]
  · rfl
  · intro lexeme mem invalid
    exact absurd invalid (kind_ne_invalid_of_tokenize tokens (whole ▸ mem))

/-! ## Outcomes -/

/-- Failures of one lexeme: they are the same, or the lexeme is rewritten and each shows the keyword
that it has. -/
def LinkFailure.Regrouped (chosen lexemes : List Lexeme) (failure other : LinkFailure) : Prop :=
  ∃ lexeme ∈ lexemes, lexeme.position = failure.position ∧
    (failure.defect = .unexpectedToken lexeme.type lexeme.text ∨
      failure.defect = .unknownCpuArch lexeme.text) ∧
    if lexeme ∈ chosen then
      ∃ keyword ∈ Command.groups, lexeme.kind = .command keyword ∧
        failure.defect = .unexpectedToken .command keyword.name ∧
        other = ⟨.unexpectedToken .command keyword.regrouped.name, failure.position⟩
    else other = failure

/-- A lexeme of a source, and the one in its place with rewritten keywords. -/
def Regrouped (chosen lexemes : List Lexeme) (lexeme other : Lexeme) : Prop :=
  lexeme ∈ lexemes ∧ other = lexeme.regroup chosen

namespace Regrouped

variable {lexeme other : Lexeme} (names : ∀ lexeme ∈ chosen, lexeme.NamesGroup)
include names

/-- A literal is not rewritten. -/
theorem eq_of_literal (related : Regrouped chosen lexemes lexeme other)
    (literal : lexeme.kind = .literal) : lexeme ∉ chosen ∧ other = lexeme := by
  have kept : lexeme ∉ chosen := fun mem => (names lexeme mem).kind_ne_literal literal
  rw [related.2]
  exact ⟨kept, if_neg kept⟩

/-- The contents of rewritten lexemes are the same. -/
theorem contents_eq {contents others : Contents}
    (related : Contents.Alike (Regrouped chosen lexemes) contents others) : others = contents := by
  have entries : List.Forall₂ (· = ·) contents.entries others.entries := by
    refine related.entries.imp ?_
    rintro _ _ ⟨lexemes, literal, needed⟩
    rw [(lexemes.eq_of_literal names literal).2]
  rw [List.forall₂_eq_eq_eq] at entries
  cases contents
  cases others
  cases entries
  cases related.cpuArch
  rfl

/-- A rewritten keyword that is to blame shows its new name. -/
theorem unexpected_regroup (mem : lexeme ∈ lexemes) :
    LinkFailure.Regrouped chosen lexemes lexeme.unexpected
      (lexeme.regroup chosen).unexpected := by
  refine ⟨lexeme, mem, rfl, Or.inl rfl, ?_⟩
  unfold Lexeme.regroup
  split
  · next mem =>
    obtain ⟨keyword, group, ⟨kind, spells⟩, ⟨kind', spells'⟩, -⟩ :=
      (names lexeme mem).exists_regrouped
    have text : lexeme.text = keyword.name := decode_eq_name_iff.mpr spells
    have text' : lexeme.regrouped.text = keyword.regrouped.name := decode_eq_name_iff.mpr spells'
    refine ⟨keyword, group, kind, ?_, ?_⟩
    · rw [Lexeme.unexpected, Token.type, kind, text]
      rfl
    · rw [Lexeme.unexpected, Token.type, kind', text', lexeme.position_regrouped]
      rfl
  · rfl

/-- Rewritten lexemes are to blame in the same way. -/
theorem failure_regrouped {failure failure' : LinkFailure}
    (related : LinkFailure.Alike (Regrouped chosen lexemes) failure failure') :
    failure.Regrouped chosen lexemes failure' := by
  cases related with
  | unexpected related =>
    obtain ⟨mem, rfl⟩ := related
    exact unexpected_regroup names mem
  | @unsupported lexeme _ related literal =>
    obtain ⟨kept, same⟩ := related.eq_of_literal names literal
    refine ⟨lexeme, related.1, rfl, Or.inr rfl, ?_⟩
    rw [if_neg kept, same]

end Regrouped

/-- **The keywords of groups are interchangeable.**  In a source that tokenizes, let any choice of
them be written over, each with the other one.  The source then has tokens at the same spans, lines
and columns, and they are the old ones apart from the rewritten keywords.

A script that is read says the same, spans included.  A script that is refused is refused for the
same defect at the same place, except that a rewritten keyword in the wrong place shows its new
name. -/
theorem parse_regroup (tokens : tokenize source = .ok lexemes)
    (keywords : ∀ lexeme ∈ chosen, lexeme ∈ lexemes ∧
      (lexeme.kind = .command .input ∨ lexeme.kind = .command .group)) :
    (tokenize (regroup chosen source) = .ok (lexemes.map (Lexeme.regroup chosen)) ∧
      (lexemes.map (Lexeme.regroup chosen)).map (fun lexeme => (lexeme.span, lexeme.position)) =
        lexemes.map fun lexeme => (lexeme.span, lexeme.position)) ∧
    (∀ contents, parse source = .ok contents → parse (regroup chosen source) = .ok contents) ∧
    ∀ fault, parse source = .error fault → ∃ failure other, fault = .link failure ∧
      parse (regroup chosen source) = .error (.link other) ∧
      failure.Regrouped chosen lexemes other := by
  have among : chosen ⊆ lexemes := fun _ mem => (keywords _ mem).1
  have names : ∀ lexeme ∈ chosen, lexeme.NamesGroup := by
    intro lexeme mem
    have found : lexeme ∈ scan source := scan_of_tokenize tokens ▸ among mem
    rcases (keywords lexeme mem).2 with kind | kind
    · exact ⟨.input, by decide, kind, scan_spells found kind⟩
    · exact ⟨.group, by decide, kind, scan_spells found kind⟩
  have tokens' := tokenize_regroup tokens names among
  have related : List.Forall₂ (Regrouped chosen lexemes) lexemes
      (lexemes.map (Lexeme.regroup chosen)) := by
    rw [List.forall₂_map_right_iff, List.forall₂_same]
    intro lexeme mem
    exact ⟨mem, rfl⟩
  have alike {lexeme other : Lexeme} (related : Regrouped chosen lexemes lexeme other) :
      lexeme.Alike other := related.2 ▸ lexeme.alike_regroup names
  have outcomes := parse_alike alike tokens tokens' related
  refine ⟨⟨tokens', ?_⟩, ?_⟩
  · rw [List.map_map]
    apply List.map_congr_left
    intro lexeme _
    simp
  generalize parse source = outcome, parse (regroup chosen source) = outcome' at outcomes
  cases outcomes with
  | ok contents =>
    refine ⟨?_, nofun⟩
    rintro _ ⟨⟩
    rw [Regrouped.contents_eq names contents]
  | error failed =>
    obtain ⟨failure, other, failures, rfl, rfl⟩ := failed
    refine ⟨nofun, ?_⟩
    rintro _ ⟨⟩
    exact ⟨failure, other, rfl, rfl, Regrouped.failure_regrouped names failures⟩

end

/-- Two groups, the first with a byte order mark in front, and a library whose name begins like a
keyword. -/
def markedGroups : Bytes := encode "\uFEFFINPUT(a) GROUP(INPUT.so AS_NEEDED(b))"

/-- A group inside a group. -/
def nestedGroups : Bytes := encode "INPUT(a GROUP(b))"

/-- Both keywords of a script that is read are rewritten, and the keyword that another script is
refused for. -/
theorem parse_regroup_marked :
    let keywords := (scan markedGroups).filter (·.kind ∈ [.command .input, .command .group])
    let inner := (scan nestedGroups).filter (·.span.start = 8)
    (regroup keywords markedGroups = encode "\uFEFFGROUP(a) INPUT(INPUT.so AS_NEEDED(b))" ∧
      parse (regroup keywords markedGroups) =
        .ok ⟨none, [⟨"a", true, ⟨9, 10⟩⟩, ⟨"INPUT.so", true, ⟨18, 26⟩⟩, ⟨"b", false, ⟨37, 38⟩⟩]⟩) ∧
    regroup inner nestedGroups = encode "INPUT(a INPUT(b))" ∧
      parse (regroup inner nestedGroups) =
        .error (.link ⟨.unexpectedToken .command "INPUT", ⟨0, 8⟩⟩) := by
  intro keywords inner
  have tokens : tokenize markedGroups = .ok (scan markedGroups) := by decide +kernel
  have chosen : ∀ lexeme ∈ keywords, lexeme ∈ scan markedGroups ∧
      (lexeme.kind = .command .input ∨ lexeme.kind = .command .group) := by
    intro lexeme mem
    simpa [keywords] using mem
  have read : parse markedGroups = .ok
      ⟨none, [⟨"a", true, ⟨9, 10⟩⟩, ⟨"INPUT.so", true, ⟨18, 26⟩⟩, ⟨"b", false, ⟨37, 38⟩⟩]⟩ := by
    decide +kernel
  have tokens' : tokenize nestedGroups = .ok (scan nestedGroups) := by decide +kernel
  have chosen' : ∀ lexeme ∈ inner, lexeme ∈ scan nestedGroups ∧
      (lexeme.kind = .command .input ∨ lexeme.kind = .command .group) := by
    decide +kernel
  have refused : parse nestedGroups =
      .error (.link ⟨.unexpectedToken .command "GROUP", ⟨0, 8⟩⟩) := by decide +kernel
  refine ⟨⟨by decide +kernel, (parse_regroup tokens chosen).2.1 _ read⟩, by decide +kernel, ?_⟩
  obtain ⟨failure, other, same, refused', lexeme, mem, position, -, shown⟩ :=
    (parse_regroup tokens' chosen').2.2 _ refused
  cases same
  have blamed : ∀ lexeme ∈ scan nestedGroups, lexeme.position = ⟨0, 8⟩ → lexeme ∈ inner := by
    decide +kernel
  rw [if_pos (blamed lexeme mem position)] at shown
  obtain ⟨keyword, -, -, name, rfl⟩ := shown
  rw [Defect.unexpectedToken.injEq] at name
  obtain rfl : Command.group = keyword := Command.name_injective name.2
  exact refused'

end LinkScript
