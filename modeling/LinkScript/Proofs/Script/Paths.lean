import LinkScript.Proofs.Script.Entries
import LinkScript.Proofs.Token.Characters

/-!
# The paths of libraries

The path of an entry is the decoded text of a literal.  What the scanner knows of the bytes of that
literal is here carried over to the characters of the path.

* `exists_literal_of_entry`: the literal that an entry was made from.
* `path_of_parse`: a path holds nothing that ends a literal and is no keyword, whatever the bytes of
  the source.  It can be empty, where a byte order mark alone is the literal, and only there
  (`not_all_paths_usable`).
* `scan_of_text`: a source that is the encoding of a text without byte order marks is read without
  loss, and a path has the bytes of its span.
-/

namespace LinkScript

open Text.Utf8

/-- The libraries that a reading meets are literals among the lexemes. -/
theorem Phase.mem_of_mem_named {phase : Phase} {lexemes : List Lexeme} {library : Lexeme}
    {needed : Bool} (h : (library, needed) ∈ phase.named lexemes) :
    library ∈ lexemes ∧ library.kind = .literal := by
  induction lexemes generalizing phase with
  | nil => simp [named] at h
  | cons lexeme rest ih =>
    cases leads : phase.next lexeme with
    | none => simp [named, leads] at h
    | some following =>
      rw [named_cons leads, List.mem_append] at h
      rcases h with here | behind
      · simp only [Option.mem_toList, Option.map_eq_some_iff, Prod.mk.injEq] at here
        obtain ⟨_, names, rfl, rfl⟩ := here
        refine ⟨List.mem_cons_self, ?_⟩
        by_contra other
        rw [needed?_of_ne_literal other] at names
        cases names
      · obtain ⟨mem, kind⟩ := ih behind
        exact ⟨List.mem_cons_of_mem _ mem, kind⟩

/-- **An entry is made from a literal of the scan**: it has its text and its span. -/
theorem exists_literal_of_entry {source : Bytes} {contents : Contents}
    (accepted : parse source = .ok contents) {entry : Entry} (mem : entry ∈ contents.entries) :
    ∃ lexeme ∈ scan source, lexeme.kind = .literal ∧ entry.path = lexeme.text ∧
      entry.span = lexeme.span ∧ lexeme.bytes = lexeme.span.slice source := by
  obtain ⟨lexemes, after, tokens, run, -, rfl⟩ := run_of_parse accepted
  obtain rfl := scan_of_tokenize tokens
  rw [Reading.entries_of_run run, List.nil_append] at mem
  obtain ⟨⟨library, needed⟩, named, rfl⟩ := List.mem_map.mp mem
  obtain ⟨found, kind⟩ := Phase.mem_of_mem_named named
  obtain ⟨before, behind, place⟩ := List.append_of_mem found
  exact ⟨library, found, kind, rfl, rfl, (scan_split place).2.2.2.2⟩

/-! ## What a path cannot hold -/

/-- No character that ends a literal is in its text. -/
theorem IsLiteral.not_mem_text {bytes rest : Bytes} (literal : IsLiteral bytes rest) {char : Char}
    (mem : char ∈ (decode bytes).toList) : char ∉ [' ', '(', ')', '\r', '\n'] := by
  intro ends
  have ascii : IsAscii char := by
    simp only [List.mem_cons, List.not_mem_nil, or_false] at ends
    rcases ends with rfl | rfl | rfl | rfl | rfl <;> decide
  obtain ⟨byte, within, code⟩ := mem_of_mem_decode mem ascii
  have other := literal.run.inside byte within
  simp only [List.mem_cons, List.not_mem_nil, or_false, not_or, ← UInt8.toNat_inj, code]
    at ends other
  rcases ends with rfl | rfl | rfl | rfl | rfl <;> revert other <;> decide

/-- **What a path holds.**  The path of an entry of an accepted source holds no blank between words,
no parenthesis and no line break, and it is no keyword.  It is empty exactly if a byte order mark
alone stands at its place. -/
theorem path_of_parse {source : Bytes} {contents : Contents}
    (accepted : parse source = .ok contents) {entry : Entry} (mem : entry ∈ contents.entries) :
    (∀ char ∈ entry.path.toList, char ∉ [' ', '(', ')', '\r', '\n']) ∧
      (∀ keyword : Command, entry.path ≠ keyword.name) ∧
      (entry.path = "" ↔ entry.span.slice source = byteOrderMark) := by
  obtain ⟨lexeme, found, kind, path, span, bytes⟩ := exists_literal_of_entry accepted mem
  have shape := scan_shape found
  rw [kind, ← bytes] at shape
  obtain ⟨literal, unspelled⟩ := shape
  rw [path, span, ← bytes]
  refine ⟨fun char => literal.not_mem_text, ?_, ?_⟩
  · intro keyword same
    exact unspelled keyword (decode_eq_name_iff.mp same)
  · have spelled : decode lexeme.bytes = "" ↔ lexeme.bytes = [] ∨ lexeme.bytes = byteOrderMark :=
      decode_eq_iff (by simp)
    rw [Lexeme.text, spelled, or_iff_right literal.ne_nil]

/-- A group of one literal, which is a byte order mark. -/
def markScript : Bytes := encode "GROUP(\uFEFF)"

/-- The group of a byte order mark names a library without a path. -/
theorem path_of_parse_mark :
    parse markScript = .ok ⟨none, [⟨"", true, ⟨6, 9⟩⟩]⟩ ∧
      (⟨"", true, ⟨6, 9⟩⟩ : Entry) ∈ [(⟨"", true, ⟨6, 9⟩⟩ : Entry)] ∧
      (∀ char ∈ "".toList, char ∉ [' ', '(', ')', '\r', '\n']) ∧
      (∀ keyword : Command, "" ≠ keyword.name) ∧
      ("" = "" ↔ Span.slice ⟨6, 9⟩ markScript = byteOrderMark) := by
  have accepted : parse markScript = .ok ⟨none, [⟨"", true, ⟨6, 9⟩⟩]⟩ := by
    decide +kernel
  have mem : (⟨"", true, ⟨6, 9⟩⟩ : Entry) ∈ [(⟨"", true, ⟨6, 9⟩⟩ : Entry)] := List.mem_cons_self
  exact ⟨accepted, mem, path_of_parse accepted mem⟩

/-- Not every path that an accepted source names can be used: it may be empty. -/
theorem not_all_paths_usable :
    ¬ ∀ (source : Bytes) (contents : Contents), parse source = .ok contents →
      ∀ entry ∈ contents.entries, entry.path ≠ "" ∧
        (∀ char ∈ entry.path.toList, char ∉ [' ', '(', ')', '\r', '\n']) ∧
        ∀ keyword : Command, entry.path ≠ keyword.name := by
  intro usable
  have accepted : parse markScript = .ok ⟨none, [⟨"", true, ⟨6, 9⟩⟩]⟩ := by
    decide +kernel
  exact (usable markScript _ accepted _ List.mem_cons_self).1 rfl

/-! ## Sources that are text -/

/-- **Text is scanned without loss.**  Let a source be the bytes of a text without byte order marks.
Each lexeme of its scan, valid or not, begins and ends between characters, and its text has the
bytes of its span; gaps and texts in order are the text; and the path of each entry has the bytes
of its span. -/
theorem scan_of_text (text : String) (unmarked : '\uFEFF' ∉ text.toList) :
    (∀ lexeme ∈ scan (encode text),
      IsBoundary text lexeme.span.start ∧ IsBoundary text lexeme.span.stop ∧
      encode (decode (lexeme.span.slice (encode text))) = lexeme.span.slice (encode text)) ∧
    spelling (encode text) 0 (scan (encode text)) = text ∧
    ∀ contents, parse (encode text) = .ok contents → ∀ entry ∈ contents.entries,
      encode entry.path = entry.span.slice (encode text) := by
  refine ⟨?_, spelling_scan unmarked, ?_⟩
  · intro lexeme mem
    obtain ⟨start, stop⟩ := isBoundary_of_mem_scan mem
    obtain ⟨before, behind, place⟩ := List.append_of_mem mem
    have bytes := (scan_split place).2.2.2.2
    rw [← bytes]
    exact ⟨start, stop, encode_text_of_mem_scan unmarked mem⟩
  · intro contents accepted entry mem
    obtain ⟨lexeme, found, -, path, span, bytes⟩ := exists_literal_of_entry accepted mem
    rw [path, span, ← bytes]
    exact encode_text_of_mem_scan unmarked found

/-- A text with characters of two and of four bytes, a tab and an open comment. -/
def accentedText : String := "GROUP(é\té 😀)\t/* é"

/-- Characters of several bytes come through the scan. -/
theorem scan_of_text_accented :
    '\uFEFF' ∉ accentedText.toList ∧
    (∀ lexeme ∈ scan (encode accentedText),
      IsBoundary accentedText lexeme.span.start ∧ IsBoundary accentedText lexeme.span.stop ∧
      encode (decode (lexeme.span.slice (encode accentedText))) =
        lexeme.span.slice (encode accentedText)) ∧
    spelling (encode accentedText) 0 (scan (encode accentedText)) = accentedText ∧
    ∀ contents, parse (encode accentedText) = .ok contents → ∀ entry ∈ contents.entries,
      encode entry.path = entry.span.slice (encode accentedText) := by
  have unmarked : '\uFEFF' ∉ accentedText.toList := by decide +kernel
  exact ⟨unmarked, scan_of_text accentedText unmarked⟩

end LinkScript
