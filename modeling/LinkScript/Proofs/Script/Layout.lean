import LinkScript.Proofs.Script.Alike

/-!
# The layout of a script

A script can be laid out in many ways: with other blanks between its tokens, or with byte order
marks in front of some.  Nothing of this matters as long as the tokens keep their types and their
texts.

* `kind_eq_of_type_eq`: of the lexemes of a scan, type and text tell the kind, because a keyword
  has its name for a text.
* `Corresponds` relates the lexemes that stand at one index of two lists, with one type and one
  text.  Such lexemes are read alike, so `parse_alike` applies to the whole of two scripts.
* `parse_of_same_tokens` reads off what this says of the two outcomes.
-/

namespace LinkScript

/-! ## What type and text tell -/

section

variable {source target : Bytes} {lexeme other : Lexeme}

/-- The text of a keyword is its name. -/
theorem text_of_command {keyword : Command} (mem : lexeme ∈ scan source)
    (kind : lexeme.kind = .command keyword) : lexeme.text = keyword.name :=
  decode_eq_name_iff.mpr (scan_spells mem kind)

/-- Only keywords have the type of keywords. -/
theorem TokenKind.exists_command_of_type {kind : TokenKind} (type : kind.type = .command) :
    ∃ keyword, kind = .command keyword := by
  cases kind with
  | command keyword => exact ⟨keyword, rfl⟩
  | _ => cases type

/-- **Lexemes with one type and one text are of one kind.** -/
theorem kind_eq_of_type_eq (mem : lexeme ∈ scan source) (mem' : other ∈ scan target)
    (type : lexeme.type = other.type) (text : lexeme.text = other.text) :
    lexeme.kind = other.kind := by
  by_cases plain : other.kind.type = .command
  · obtain ⟨keyword, kind⟩ := TokenKind.exists_command_of_type (type.trans plain)
    obtain ⟨keyword', kind'⟩ := TokenKind.exists_command_of_type plain
    rw [text_of_command mem kind, text_of_command mem' kind'] at text
    rw [kind, kind', Command.name_injective text]
  · exact (lexeme.type_eq_iff other.kind plain).mp type

end

/-! ## Corresponding lexemes -/

/-- Lexemes that stand at one index of two lists and have one type and one text. -/
structure Corresponds (lexemes there : List Lexeme) (lexeme other : Lexeme) : Prop where
  place : ∃ index : Nat, lexemes[index]? = some lexeme ∧ there[index]? = some other
  type : lexeme.type = other.type
  text : lexeme.text = other.text

section

variable {source target : Bytes} {lexemes there : List Lexeme}

/-- Lists with one type and one text at each place correspond throughout. -/
theorem corresponds_of_same
    (same : List.Forall₂ (fun a b => a.type = b.type ∧ a.text = b.text) lexemes there) :
    List.Forall₂ (Corresponds lexemes there) lexemes there := by
  obtain ⟨length, pairs⟩ := List.forall₂_iff_get.mp same
  refine List.forall₂_iff_get.mpr ⟨length, ?_⟩
  intro index inside inside'
  obtain ⟨type, text⟩ := pairs index inside inside'
  exact ⟨⟨index, List.getElem?_eq_getElem inside, List.getElem?_eq_getElem inside'⟩, type, text⟩

namespace Corresponds

/-- Corresponding lexemes of two sources are read alike. -/
theorem alike (tokens : tokenize source = .ok lexemes) (tokens' : tokenize target = .ok there)
    {lexeme other : Lexeme} (pair : Corresponds lexemes there lexeme other) :
    lexeme.Alike other := by
  obtain ⟨index, found, found'⟩ := pair.place
  have mem : lexeme ∈ scan source := scan_of_tokenize tokens ▸ List.mem_of_getElem? found
  have mem' : other ∈ scan target := scan_of_tokenize tokens' ▸ List.mem_of_getElem? found'
  exact ⟨Or.inl (kind_eq_of_type_eq mem mem' pair.type pair.text), fun _ => pair.text⟩

/-- Entries of corresponding literals differ in their spans only. -/
theorem entry_eq {entry other : Entry}
    (entries : Entry.Alike (Corresponds lexemes there) entry other) :
    entry.path = other.path ∧ entry.needed = other.needed := by
  cases entries with
  | intro pair _ needed => exact ⟨pair.text, rfl⟩

/-- Failures of corresponding lexemes differ in their places only. -/
theorem failure_eq {failure other : LinkFailure}
    (failures : LinkFailure.Alike (Corresponds lexemes there) failure other) :
    ∃ (index : Nat) (lexeme lexeme' : Lexeme) (defect : Defect),
      lexemes[index]? = some lexeme ∧ there[index]? = some lexeme' ∧
      (defect = .unexpectedToken lexeme.type lexeme.text ∨ defect = .unknownCpuArch lexeme.text) ∧
      failure = ⟨defect, lexeme.position⟩ ∧ other = ⟨defect, lexeme'.position⟩ := by
  cases failures with
  | @unexpected lexeme lexeme' pair =>
    obtain ⟨index, found, found'⟩ := pair.place
    refine ⟨index, lexeme, lexeme', _, found, found', Or.inl rfl, rfl, ?_⟩
    rw [pair.type, pair.text]
    rfl
  | @unsupported lexeme lexeme' pair literal =>
    obtain ⟨index, found, found'⟩ := pair.place
    refine ⟨index, lexeme, lexeme', _, found, found', Or.inr rfl, rfl, ?_⟩
    rw [pair.text]

end Corresponds

/-! ## The whole script -/

/-- **The layout of a script does not matter.**  Let two sources tokenize to lists of one length
with one type and one text at each place.  If one of them is read then so is the other, with the
same architecture and the same libraries, needed or not, in the same order.  If one of them is
refused then so is the other, for the same defect, which is shown by the tokens at one index: each
source is refused at the place that this token has in it. -/
theorem parse_of_same_tokens (tokens : tokenize source = .ok lexemes)
    (tokens' : tokenize target = .ok there)
    (same : List.Forall₂ (fun a b => a.type = b.type ∧ a.text = b.text) lexemes there) :
    (∀ contents, parse source = .ok contents → ∃ other, parse target = .ok other ∧
      contents.cpuArch = other.cpuArch ∧
      contents.entries.map (fun entry => (entry.path, entry.needed)) =
        other.entries.map fun entry => (entry.path, entry.needed)) ∧
    ∀ fault, parse source = .error fault →
      ∃ (index : Nat) (lexeme lexeme' : Lexeme) (defect : Defect),
        lexemes[index]? = some lexeme ∧ there[index]? = some lexeme' ∧
        (defect = .unexpectedToken lexeme.type lexeme.text ∨
          defect = .unknownCpuArch lexeme.text) ∧
        fault = .link ⟨defect, lexeme.position⟩ ∧
        parse target = .error (.link ⟨defect, lexeme'.position⟩) := by
  have outcomes := parse_alike (Corresponds.alike tokens tokens') tokens tokens'
    (corresponds_of_same same)
  generalize parse source = outcome, parse target = outcome' at outcomes
  cases outcomes with
  | @ok contents other alike =>
    refine ⟨?_, nofun⟩
    rintro _ ⟨⟩
    refine ⟨other, rfl, alike.cpuArch, ?_⟩
    rw [← List.forall₂_eq_eq_eq, List.forall₂_map_left_iff, List.forall₂_map_right_iff]
    apply alike.entries.imp
    intro entry entry' related
    obtain ⟨path, needed⟩ := Corresponds.entry_eq related
    rw [path, needed]
  | error failed =>
    refine ⟨nofun, ?_⟩
    rintro _ ⟨⟩
    obtain ⟨failure, failure', failures, rfl, rfl⟩ := failed
    obtain ⟨index, lexeme, lexeme', defect, found, found', shown, rfl, rfl⟩ :=
      Corresponds.failure_eq failures
    exact ⟨index, lexeme, lexeme', defect, found, found', shown, rfl, rfl⟩

end

/-- A format in braces and a group, with no blank where none is needed. -/
def tightLayout : Bytes :=
  Text.Utf8.encode "OUTPUT_FORMAT\n\x7belf64-x86-64\n\x7dGROUP(a AS_NEEDED(b))"

/-- The same script with blanks, and with a byte order mark before a library. -/
def wideLayout : Bytes := Text.Utf8.encode
  " OUTPUT_FORMAT \n\t\x7b  elf64-x86-64 \n\x7d\tGROUP ( \uFEFFa  AS_NEEDED ( b ) ) "

/-- A group inside a group. -/
def tightNested : Bytes := Text.Utf8.encode "GROUP(a INPUT(b))"

/-- The same with blanks. -/
def wideNested : Bytes := Text.Utf8.encode "  GROUP  (\ta   INPUT ( b ) )"

/-- Two layouts of a script that is read, and two of one that is refused. -/
theorem parse_of_same_tokens_wide :
    tokenize tightLayout = .ok (scan tightLayout) ∧ tokenize wideLayout = .ok (scan wideLayout) ∧
    List.Forall₂ (fun a b => a.type = b.type ∧ a.text = b.text)
      (scan tightLayout) (scan wideLayout) ∧
    (∃ contents, parse wideLayout = .ok contents ∧ contents.cpuArch = some .x86_64 ∧
      contents.entries.map (fun entry => (entry.path, entry.needed)) =
        [("a", true), ("b", false)]) ∧
    ∃ lexeme ∈ scan wideNested, parse wideNested =
      .error (.link ⟨.unexpectedToken .command "INPUT", lexeme.position⟩) := by
  have tight : tokenize tightLayout = .ok (scan tightLayout) := tokenize_eq_scan (by decide +kernel)
  have wide : tokenize wideLayout = .ok (scan wideLayout) := tokenize_eq_scan (by decide +kernel)
  have same : List.Forall₂ (fun a b => a.type = b.type ∧ a.text = b.text)
      (scan tightLayout) (scan wideLayout) := by decide +kernel
  have read : parse tightLayout =
      .ok ⟨some .x86_64, [⟨"a", true, ⟨35, 36⟩⟩, ⟨"b", false, ⟨47, 48⟩⟩]⟩ := by decide +kernel
  have refused : parse tightNested =
      .error (.link ⟨.unexpectedToken .command "INPUT", ⟨0, 8⟩⟩) := by decide +kernel
  refine ⟨tight, wide, same, ?_, ?_⟩
  · obtain ⟨other, accepted, arch, entries⟩ := (parse_of_same_tokens tight wide same).1 _ read
    exact ⟨other, accepted, arch.symm, entries.symm⟩
  · have nested : tokenize tightNested = .ok (scan tightNested) :=
      tokenize_eq_scan (by decide +kernel)
    have apart : tokenize wideNested = .ok (scan wideNested) :=
      tokenize_eq_scan (by decide +kernel)
    obtain ⟨_, _, lexeme, defect, _, found, _, shown, refused'⟩ :=
      (parse_of_same_tokens nested apart (by decide +kernel)).2 _ refused
    rw [ParseFault.link.injEq, LinkFailure.mk.injEq] at shown
    rw [← shown.1] at refused'
    exact ⟨lexeme, List.mem_of_getElem? found, refused'⟩

end LinkScript
