import LinkScript.Proofs.Token.Shape

/-!
# Which sources hold an invalid token

A scan finds an invalid token exactly where a carriage return stands alone.

* `Tiled.exists_mem_span` and `Tiled.eq_of_mem_span`: every byte of a tiling that is no blank lies
  in the span of a lexeme, and in one only.
* `LoneReturn source index` says of the bytes and the comments alone that the carriage return at an
  index is neither part of a line break nor of a comment.
* `exists_invalid_iff` is the equivalence, and `count_return_of_invalid` says how often a carriage
  return occurs in an invalid token.
-/

namespace LinkScript

/-! ## Bytes and spans -/

/-- An offset lies in a span. -/
def Span.Holds (span : Span) (index : Nat) : Prop := span.start ≤ index ∧ index < span.stop

/-- A byte of a span is the byte of the source that stands as far behind its start. -/
theorem Span.getElem?_slice {span : Span} {source : Bytes} {index : Nat} (inside : span.Holds index) :
    (span.slice source)[index - span.start]? = source[index]? := by
  obtain ⟨behind, before⟩ := inside
  have short : index - span.start < span.stop - span.start := by omega
  have same : span.start + (index - span.start) = index := by omega
  rw [slice, List.getElem?_take_of_lt short, List.getElem?_drop, same]

namespace Tiled

variable {offset : Nat} {input : Bytes} {lexemes : List Lexeme}

/-- A byte that is no blank lies in the span of a lexeme. -/
theorem exists_mem_span (h : Tiled offset input lexemes) {index : Nat} {byte : UInt8}
    (found : input[index]? = some byte) (ink : Byte.isBlank byte = false) :
    ∃ lexeme ∈ lexemes, lexeme.span.Holds (offset + index) := by
  induction h generalizing index with
  | @eof offset gap lexeme blank _ _ _ =>
    have mem : byte ∈ gap := List.mem_of_getElem? found
    simp [blank byte mem] at ink
  | @token offset gap rest lexeme lexemes blank _ _ span _ ih =>
    rw [List.append_assoc] at found
    rcases Nat.lt_or_ge index gap.length with inGap | behindGap
    · rw [List.getElem?_append_left inGap] at found
      have mem : byte ∈ gap := List.mem_of_getElem? found
      simp [blank byte mem] at ink
    · rcases Nat.lt_or_ge index (gap.length + lexeme.bytes.length) with inside | behind
      · refine ⟨lexeme, List.mem_cons_self, ?_⟩
        rw [span]
        constructor
        · show offset + gap.length ≤ offset + index
          omega
        · show offset + index < offset + gap.length + lexeme.bytes.length
          omega
      · rw [List.getElem?_append_right behindGap, List.getElem?_append_right (by omega)] at found
        obtain ⟨holder, mem, holds⟩ := ih found
        have same : offset + gap.length + lexeme.bytes.length +
            (index - gap.length - lexeme.bytes.length) = offset + index := by omega
        rw [same] at holds
        exact ⟨holder, List.mem_cons_of_mem _ mem, holds⟩

/-- No byte lies in the spans of two lexemes. -/
theorem eq_of_mem_span (h : Tiled offset input lexemes) {a b : Lexeme} (ha : a ∈ lexemes)
    (hb : b ∈ lexemes) {index : Nat} (inA : a.span.Holds index) (inB : b.span.Holds index) :
    a = b := by
  obtain ⟨startA, stopA⟩ := inA
  obtain ⟨startB, stopB⟩ := inB
  obtain ⟨before, after, rfl⟩ := List.append_of_mem ha
  obtain ⟨-, tail, across⟩ := List.pairwise_append.mp h.pairwise
  rcases List.mem_append.mp hb with front | back
  · have order := (across b front a List.mem_cons_self).2
    omega
  · rcases List.mem_cons.mp back with rfl | behind
    · rfl
    · have order := ((List.pairwise_cons.mp tail).1 b behind).2
      omega

end Tiled

/-- The span of a lexeme cuts as many bytes out of the source as it has offsets. -/
theorem scan_slice_length {source : Bytes} {lexeme : Lexeme} (mem : lexeme ∈ scan source) :
    (lexeme.span.slice source).length = lexeme.span.stop - lexeme.span.start := by
  obtain ⟨before, after, place⟩ := List.append_of_mem mem
  obtain ⟨-, stop, -, -, bytes⟩ := scan_split place
  rw [← bytes, stop]
  omega

/-! ## Carriage returns -/

/-- A carriage return that no line feed follows and that lies in no comment. -/
structure LoneReturn (source : Bytes) (index : Nat) : Prop where
  isReturn : source[index]? = some Byte.carriageReturn
  alone : source[index + 1]? ≠ some Byte.lineFeed
  outside : ∀ comment ∈ scan source, comment.kind = .comment → ¬ comment.span.Holds index

/-- No carriage return occurs in a literal. -/
theorem LiteralRun.return_notMem {run : Bytes} (h : LiteralRun run) :
    Byte.carriageReturn ∉ run := by
  intro mem
  exact h.inside _ mem (by simp)

/-- An invalid token ends with the only carriage return in it. -/
theorem count_return_of_invalid {bytes rest : Bytes} (shape : Shape .invalid bytes rest) :
    bytes.count Byte.carriageReturn = 1 ∧ bytes.getLast? = some Byte.carriageReturn := by
  obtain ⟨⟨run, isRun, rfl⟩, -⟩ := shape
  have none : run.count Byte.carriageReturn = 0 := List.count_eq_zero.mpr isRun.return_notMem
  exact ⟨by simp [none], by simp⟩

/-- The carriage return that ends an invalid token stands alone. -/
theorem loneReturn_of_invalid {source : Bytes} {lexeme : Lexeme} (mem : lexeme ∈ scan source)
    (kind : lexeme.kind = .invalid) : LoneReturn source (lexeme.span.stop - 1) := by
  have shape := scan_shape mem
  rw [kind] at shape
  have order := scan_start_lt_stop mem (by simp [kind])
  have holds : lexeme.span.Holds (lexeme.span.stop - 1) := ⟨by omega, by omega⟩
  refine ⟨?_, ?_, ?_⟩
  · have last := (count_return_of_invalid shape).2
    rw [List.getLast?_eq_getElem?, scan_slice_length mem] at last
    rw [← Span.getElem?_slice holds, ← last]
    congr 1
    omega
  · have alone := shape.2
    have behind : lexeme.span.stop - 1 + 1 = lexeme.span.stop := by omega
    rwa [List.head?_drop, ← behind] at alone
  · intro comment memComment isComment inside
    have same := (scan_tiled source).eq_of_mem_span mem memComment holds inside
    rw [← same, kind] at isComment
    cases isComment

/-- A token with a carriage return is invalid, a comment or a line break. -/
theorem Shape.cases_of_return {kind : TokenKind} {bytes rest : Bytes} (shape : Shape kind bytes rest)
    (mem : Byte.carriageReturn ∈ bytes) :
    kind = .invalid ∨ kind = .comment ∨ bytes = [Byte.carriageReturn, Byte.lineFeed] := by
  cases kind with
  | invalid => exact Or.inl rfl
  | comment => exact Or.inr (Or.inl rfl)
  | newline =>
    rcases shape with rfl | rfl
    · revert mem
      decide
    · exact Or.inr (Or.inr rfl)
  | eof =>
    obtain ⟨rfl, -⟩ := shape
    cases mem
  | lparen | rparen | lbrace | rbrace =>
    obtain rfl := shape
    revert mem
    decide
  | command keyword => exact absurd mem shape.1.run.return_notMem
  | literal => exact absurd mem shape.1.run.return_notMem

/-- The lexeme in which a carriage return stands alone is invalid. -/
theorem LoneReturn.kind_eq_invalid {source : Bytes} {index : Nat} (h : LoneReturn source index)
    {lexeme : Lexeme} (mem : lexeme ∈ scan source) (holds : lexeme.span.Holds index) :
    lexeme.kind = .invalid := by
  have byte : (lexeme.span.slice source)[index - lexeme.span.start]? = some Byte.carriageReturn :=
    (Span.getElem?_slice holds).trans h.isReturn
  rcases (scan_shape mem).cases_of_return (List.mem_of_getElem? byte) with kind | kind | bytes
  · exact kind
  · exact absurd holds (h.outside lexeme mem kind)
  · -- the carriage return of a line break is followed by its line feed
    have length := scan_slice_length mem
    rw [bytes, List.length_cons, List.length_singleton] at length
    obtain ⟨behind, before⟩ := holds
    have first : index = lexeme.span.start := by
      by_contra other
      have second : index - lexeme.span.start = 1 := by omega
      rw [bytes, second] at byte
      revert byte
      decide
    have feed : (lexeme.span.slice source)[index + 1 - lexeme.span.start]? = source[index + 1]? :=
      Span.getElem?_slice ⟨by omega, by omega⟩
    have second : index + 1 - lexeme.span.start = 1 := by omega
    rw [bytes, second] at feed
    exact absurd feed.symm h.alone

/-- **A scan finds an invalid token exactly where a carriage return stands alone**: no line feed
follows it, and it lies in no comment. -/
theorem exists_invalid_iff {source : Bytes} :
    (∃ lexeme ∈ scan source, lexeme.kind = .invalid) ↔ ∃ index, LoneReturn source index := by
  constructor
  · rintro ⟨lexeme, mem, kind⟩
    exact ⟨_, loneReturn_of_invalid mem kind⟩
  · rintro ⟨index, lone⟩
    obtain ⟨lexeme, mem, holds⟩ := (scan_tiled source).exists_mem_span lone.isReturn (by decide)
    rw [Nat.zero_add] at holds
    exact ⟨lexeme, mem, lone.kind_eq_invalid mem holds⟩

end LinkScript
