import LinkScript.Proofs.Script.Entries
import LinkScript.Proofs.Token.Overwrite

/-!
# Scripts with comments made blank

Comments of a script that is accepted say nothing: made blank, each as long as it was, they leave a
script that says the same of the same places.

* `scanFrom_of_blanks`: blanks in front of a scan move its mark and nothing else.
* `scan_of_spaces`: with spaces over chosen comments a source has the scan without these comments.
  No comment begins right behind a literal, so nothing is joined by taking one away.  It does not
  matter which bytes the comments hold or whether the last one is closed.
* `Reading.run_filter`: a run that succeeds meets comments only between directives, where they
  change nothing.
* `parse_of_spaces` puts these together.
-/

namespace LinkScript

/-! ## Blanks in front of a scan -/

/-- Blanks in front of a token are added to its gap. -/
theorem Token.next_of_blanks {blanks : Bytes} (blank : ∀ byte ∈ blanks, Byte.isBlank byte)
    (input : Bytes) :
    next (blanks ++ input) = { next input with gap := blanks ++ (next input).gap } := by
  simp only [next, List.takeWhile_append_of_pos blank, List.dropWhile_append_of_pos blank]

/-- **Blanks in front of a scan** move its mark. -/
theorem scanFrom_of_blanks {blanks : Bytes} (blank : ∀ byte ∈ blanks, Byte.isBlank byte)
    (mark : Mark) (input : Bytes) :
    scanFrom mark (blanks ++ input) =
      scanFrom { mark with offset := mark.offset + blanks.length } input := by
  have next := Token.next_of_blanks blank input
  have lexeme : (Token.next (blanks ++ input)).lexeme mark =
      (Token.next input).lexeme { mark with offset := mark.offset + blanks.length } := by
    rw [next]
    simp only [Cut.lexeme, Mark.position, List.length_append, Nat.add_assoc]
  by_cases eof : (Token.next input).kind = .eof
  · rw [scanFrom_of_eof eof, scanFrom_of_eof (by rw [next]; exact eof), lexeme]
  · have past : ∀ kind stop, mark.past kind stop =
        Mark.past { mark with offset := mark.offset + blanks.length } kind stop := by
      intro kind stop
      unfold Mark.past
      split <;> rfl
    rw [next] at lexeme
    rw [scanFrom_of_next next eof, scanFrom_of_next rfl eof, ← past, lexeme]

/-! ## Spaces over comments -/

/-- A space for each byte of a lexeme. -/
def Lexeme.spaces (lexeme : Lexeme) : Bytes := List.replicate lexeme.bytes.length Byte.space

/-- There are as many spaces as the lexeme has bytes. -/
@[simp] theorem Lexeme.length_spaces (lexeme : Lexeme) :
    lexeme.spaces.length = lexeme.bytes.length :=
  List.length_replicate

/-- A space is a blank. -/
theorem Lexeme.isBlank_of_mem_spaces {lexeme : Lexeme} {byte : UInt8}
    (mem : byte ∈ lexeme.spaces) : Byte.isBlank byte := by
  rw [List.eq_of_mem_replicate mem]
  decide

/-- Any token that can stand before a lexeme can stand before spaces. -/
theorem follows_spaces {lexeme : Lexeme} (some : lexeme.bytes ≠ []) (rest other : Bytes) :
    Follows (lexeme.bytes ++ rest) (lexeme.spaces ++ other) := by
  obtain ⟨byte, bytes, shape⟩ := List.exists_cons_of_ne_nil some
  have head : (lexeme.spaces ++ other).head? = Option.some Byte.space := by
    rw [Lexeme.spaces, shape]
    rfl
  refine ⟨?_, ?_, ?_⟩
  · intro nothing
    exact absurd (List.append_eq_nil_iff.mp nothing).1 some
  · intro lineFeed
    rw [head] at lineFeed
    exact absurd lineFeed (by decide)
  · intro _
    exact Or.inr (Or.inl ⟨Byte.space, by simp, head⟩)

/-- **The scan with spaces over comments** is the scan without these comments.  The tokens between
them stand before what they can stand before. -/
theorem scanFrom_of_spaces {chosen : List Lexeme} (mark : Mark) (input : Bytes)
    (awaits : Awaits chosen mark.offset (scanFrom mark input))
    (comments : ∀ lexeme ∈ chosen, lexeme.kind = .comment) :
    scanFrom mark (overwriteFrom Lexeme.spaces chosen mark.offset input) =
      (scanFrom mark input).filter (· ∉ chosen) ∧
    Follows input (overwriteFrom Lexeme.spaces chosen mark.offset input) := by
  fun_induction scanFrom mark input with
  | case1 mark input cut lexeme eof =>
    have start : lexeme.span.start = mark.offset + input.length := by
      rw [← (Token.next_of_kind_eof eof).1]
      rfl
    have kept : overwriteFrom Lexeme.spaces chosen mark.offset input = input :=
      overwriteFrom_gap awaits start (List.forall_mem_nil _)
    have other : lexeme ∉ chosen := by
      intro mem
      exact absurd (eof.symm.trans (comments lexeme mem)) (by decide)
    rw [kept, scanFrom_of_eof eof]
    refine ⟨?_, Follows.refl input⟩
    rw [List.filter_cons_of_pos (by simpa using other), List.filter_nil]
  | case2 mark input cut lexeme other ih =>
    have whole : cut.gap ++ lexeme.bytes ++ cut.rest = input := Token.next_append input
    have blank : ∀ byte ∈ cut.gap, Byte.isBlank byte := fun _ => Token.isBlank_of_mem_gap
    have some : lexeme.bytes ≠ [] := Token.next_bytes_ne_nil other
    have behind : (mark.past lexeme.kind lexeme.span.stop).offset = lexeme.span.stop :=
      Mark.offset_past _ _ _
    have later := (scanFrom_tiled (mark.past lexeme.kind lexeme.span.stop) cut.rest).offset_le_start
    have low : mark.offset ≤ lexeme.span.stop := by
      simp only [lexeme, Cut.lexeme]
      omega
    rw [behind] at ih later
    obtain ⟨tail, follows⟩ := ih (awaits.tail low rfl)
    have written : overwriteFrom Lexeme.spaces chosen mark.offset
        (cut.gap ++ lexeme.bytes ++ cut.rest) =
          cut.gap ++ (if lexeme ∈ chosen then lexeme.spaces else lexeme.bytes) ++
            overwriteFrom Lexeme.spaces chosen lexeme.span.stop cut.rest :=
      overwriteFrom_token awaits rfl later fun _ => lexeme.length_spaces
    rw [whole] at written
    generalize overwriteFrom Lexeme.spaces chosen lexeme.span.stop cut.rest = rest at *
    rw [written, ← whole, List.append_assoc, List.append_assoc]
    by_cases mem : lexeme ∈ chosen
    · -- the blanks in front of the comment and its spaces come before the next token
      have kind : lexeme.kind = .comment := comments lexeme mem
      have blanks : ∀ byte ∈ cut.gap ++ lexeme.spaces, Byte.isBlank byte := by
        intro byte found
        rcases List.mem_append.mp found with inGap | inSpaces
        · exact blank byte inGap
        · exact Lexeme.isBlank_of_mem_spaces inSpaces
      have past : mark.past lexeme.kind lexeme.span.stop =
          { mark with offset := mark.offset + (cut.gap ++ lexeme.spaces).length } := by
        rw [kind, List.length_append, Lexeme.length_spaces, ← Nat.add_assoc]
        rfl
      rw [if_pos mem, List.filter_cons_of_neg (by simpa using mem), ← tail, past,
        ← scanFrom_of_blanks blanks, List.append_assoc]
      exact ⟨rfl, (follows_spaces some cut.rest rest).behind_gap blank⟩
    · have looks : Shape lexeme.kind lexeme.bytes cut.rest := Token.shape_next input
      have next := Token.next_of_shape blank (looks.of_follows follows)
      rw [List.append_assoc] at next
      rw [if_neg mem, List.filter_cons_of_pos (by simpa using mem), ← tail,
        scanFrom_of_next next other]
      exact ⟨rfl, (looks.follows other rest).behind_gap blank⟩

/-- **A source with spaces over chosen comments** has the scan without these comments. -/
theorem scan_of_spaces {source : Bytes} {chosen : List Lexeme}
    (comments : ∀ lexeme ∈ chosen, lexeme ∈ scan source ∧ lexeme.kind = .comment) :
    scan (overwrite Lexeme.spaces chosen source) = (scan source).filter (· ∉ chosen) :=
  (scanFrom_of_spaces Mark.origin source (awaits_scan fun _ mem => (comments _ mem).1)
    fun _ mem => (comments _ mem).2).1

/-! ## Runs without comments -/

/-- A comment that is read leaves the reading as it was. -/
theorem Reading.eq_of_step_comment {reading next : Reading} {lexeme : Lexeme}
    (kind : lexeme.kind = .comment) (step : reading.step lexeme = .ok next) : next = reading := by
  have leads := Phase.next_eq_some_iff.mp (step_eq_ok_iff.mp step).1
  have tops : reading.phase = .top ∧ next.phase = .top := by
    generalize reading.phase = start at leads
    generalize next.phase = finish at leads
    cases leads <;> simp_all
  have contents := contents_of_top tops.1 step
  cases reading
  cases next
  simp_all

/-- **A run that succeeds goes the same way** without some of the comments. -/
theorem Reading.run_filter {reading after : Reading} {lexemes : List Lexeme} {keep : Lexeme → Bool}
    (run : reading.run lexemes = .ok after)
    (dropped : ∀ lexeme ∈ lexemes, keep lexeme = false → lexeme.kind = .comment) :
    reading.run (lexemes.filter keep) = .ok after := by
  induction lexemes generalizing reading with
  | nil => exact run
  | cons lexeme rest ih =>
    obtain ⟨next, step, run⟩ := run_cons_eq_ok_iff.mp run
    have behind := ih run fun later mem => dropped later (List.mem_cons_of_mem _ mem)
    by_cases kept : keep lexeme = true
    · rw [List.filter_cons_of_pos kept]
      exact run_cons_eq_ok_iff.mpr ⟨next, step, behind⟩
    · have comment := dropped lexeme List.mem_cons_self (by simpa using kept)
      rw [List.filter_cons_of_neg kept, ← eq_of_step_comment comment step]
      exact behind

/-! ## The whole script -/

/-- **Comments say nothing in a script that is accepted.**  With a space over every byte of chosen
comments, the last one of which may be open, the script is accepted with the same contents: the same
architecture, and the same libraries with the same spans. -/
theorem parse_of_spaces {source : Bytes} {contents : Contents}
    (accepted : parse source = .ok contents) {chosen : List Lexeme}
    (comments : ∀ lexeme ∈ chosen, lexeme ∈ scan source ∧ lexeme.kind = .comment) :
    parse (overwrite Lexeme.spaces chosen source) = .ok contents := by
  obtain ⟨lexemes, after, tokens, run, -, rfl⟩ := run_of_parse accepted
  rw [scan_of_tokenize tokens] at run
  apply parse_of_run
  rw [scan_of_spaces comments]
  apply Reading.run_filter run
  intro lexeme _ dropped
  exact (comments lexeme (by simpa using dropped)).2

/-- A script with comments that hold line breaks, a lone carriage return and another opening mark,
and with a comment at its end that is not closed. -/
def annotatedScript : Bytes :=
  Text.Utf8.encode "/*\r(\n*/GROUP(a)/* /* */\nOUTPUT_FORMAT(elf64-x86-64)/**/ /* open"

/-- Three of its four comments made blank. -/
theorem parse_of_spaces_open :
    let chosen := (scan annotatedScript).filter fun lexeme =>
      lexeme.kind = .comment ∧ lexeme.span.start ≠ 15
    (∀ lexeme ∈ chosen, lexeme ∈ scan annotatedScript ∧ lexeme.kind = .comment) ∧
    overwrite Lexeme.spaces chosen annotatedScript =
      Text.Utf8.encode "       GROUP(a)/* /* */\nOUTPUT_FORMAT(elf64-x86-64)            " ∧
    parse (overwrite Lexeme.spaces chosen annotatedScript) =
      .ok ⟨some .x86_64, [⟨"a", true, ⟨13, 14⟩⟩]⟩ := by
  intro chosen
  have comments : ∀ lexeme ∈ chosen, lexeme ∈ scan annotatedScript ∧ lexeme.kind = .comment := by
    intro lexeme mem
    obtain ⟨found, comment⟩ := List.mem_filter.mp mem
    exact ⟨found, (of_decide_eq_true comment).1⟩
  have accepted : parse annotatedScript = .ok ⟨some .x86_64, [⟨"a", true, ⟨13, 14⟩⟩]⟩ := by
    decide +kernel
  exact ⟨comments, by decide +kernel, parse_of_spaces accepted comments⟩

end LinkScript
