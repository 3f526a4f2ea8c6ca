import LinkScript.Proofs.Token.Position
import LinkScript.Proofs.Token.Shape

/-!
# Scanning one source behind another

Two sources with a line feed between them are scanned one after the other, if the first is not cut
off at its end.

* `Lexeme.shift` is the lexeme with bytes and lines put in front of its source.  The scan of a
  shifted mark is the shifted scan (`scanFrom_shift`): columns count from the last newline, so they
  stay.
* `Shape.before_lineFeed`: what looks like a token looks the same with a line feed behind the
  source, unless it is an `eof`, an invalid token or a comment that is not closed.
* `Lexeme.CutOff` is such a comment.  If the last comment is not cut off then none is
  (`not_cutOff_of_last`).
* `scan_join` is the scan of the join.
-/

namespace LinkScript

/-! ## Further behind -/

/-- The span with bytes put in front of its source. -/
def Span.shift (span : Span) (bytes : Nat) : Span := ⟨span.start + bytes, span.stop + bytes⟩

/-- The place with lines put in front of its source. -/
def Position.lower (position : Position) (lines : Nat) : Position :=
  { position with line := position.line + lines }

/-- The lexeme with bytes and lines put in front of its source. -/
def Lexeme.shift (lexeme : Lexeme) (bytes lines : Nat) : Lexeme :=
  { lexeme with span := lexeme.span.shift bytes, position := lexeme.position.lower lines }

/-- The mark with bytes and lines put in front of its source. -/
def Mark.shift (mark : Mark) (bytes lines : Nat) : Mark :=
  ⟨mark.offset + bytes, mark.line + lines, mark.lineStart + bytes⟩

section

variable (lexeme : Lexeme) (mark : Mark) (bytes lines : Nat)

/-- A lexeme further on in a source has the same kind. -/
@[simp] theorem Lexeme.kind_shift : (lexeme.shift bytes lines).kind = lexeme.kind := rfl

/-- A lexeme further on in a source has the same text. -/
@[simp] theorem Lexeme.text_shift : (lexeme.shift bytes lines).text = lexeme.text := rfl

/-- A lexeme further on in a source has its span as far further on. -/
@[simp] theorem Lexeme.span_shift : (lexeme.shift bytes lines).span = lexeme.span.shift bytes := rfl

/-- A newline begins a line behind a shifted mark as it does behind the mark. -/
theorem Mark.past_shift (kind : TokenKind) (stop : Nat) :
    (mark.shift bytes lines).past kind (stop + bytes) = (mark.past kind stop).shift bytes lines := by
  unfold past
  by_cases newline : kind = .newline
  · simp only [if_pos newline, shift, Nat.add_right_comm]
  · simp only [if_neg newline, shift]

/-- A place behind a shifted mark is lower by its lines, in the same column. -/
theorem Mark.position_shift (gap : Nat) :
    (mark.shift bytes lines).position gap = (mark.position gap).lower lines := by
  have column : ((mark.offset + bytes + gap : Nat) : Int) - (mark.lineStart + bytes : Nat) =
      (mark.offset + gap : Nat) - (mark.lineStart : Int) := by
    omega
  unfold position shift Position.lower
  dsimp only
  rw [column, Int.natCast_add]

/-- What is cut off at a shifted mark is shifted with it. -/
theorem Cut.lexeme_shift (cut : Cut) :
    cut.lexeme (mark.shift bytes lines) = (cut.lexeme mark).shift bytes lines := by
  unfold lexeme Lexeme.shift
  rw [Mark.position_shift]
  simp only [Mark.shift, Span.shift, Nat.add_right_comm _ bytes]

/-- **The scan of a shifted mark is the shifted scan.** -/
theorem scanFrom_shift (input : Bytes) :
    scanFrom (mark.shift bytes lines) input =
      (scanFrom mark input).map (·.shift bytes lines) := by
  fun_induction scanFrom mark input with
  | case1 mark input cut lexeme eof =>
    rw [scanFrom]
    simp only [cut] at eof
    simp only [eof, dite_true, List.map_singleton, Cut.lexeme_shift]
    rfl
  | case2 mark input cut lexeme other ih =>
    have behind : (mark.shift bytes lines).past cut.kind
        (cut.lexeme (mark.shift bytes lines)).span.stop =
          (mark.past lexeme.kind lexeme.span.stop).shift bytes lines := by
      rw [Cut.lexeme_shift]
      exact mark.past_shift bytes lines cut.kind lexeme.span.stop
    rw [scanFrom_of_next rfl other, behind, ih, Cut.lexeme_shift]
    rfl

end

/-! ## A line feed behind a token -/

/-- A literal ends before a line feed as before the end of its source. -/
theorem IsLiteral.before_lineFeed {bytes rest : Bytes} (literal : IsLiteral bytes rest)
    (back : Bytes) : IsLiteral bytes (rest ++ Byte.lineFeed :: back) where
  ne_nil := literal.ne_nil
  run := literal.run
  behind := by
    rcases literal.behind with rfl | ⟨byte, mem, head⟩ | ends
    · exact Or.inr (Or.inl ⟨Byte.lineFeed, by simp, rfl⟩)
    · refine Or.inr (Or.inl ⟨byte, mem, ?_⟩)
      rw [List.head?_append, head, Option.some_or]
    · exact Or.inr (Or.inr (ends.trans (List.prefix_append _ _)))

/-- What looks like a token looks the same with a line feed behind the source, unless the source
ends inside it. -/
theorem Shape.before_lineFeed {kind : TokenKind} {bytes rest : Bytes} (shape : Shape kind bytes rest)
    (inner : kind ≠ .eof) (valid : kind ≠ .invalid)
    (closed : kind = .comment → commentClose <:+: bytes.drop 2) (back : Bytes) :
    Shape kind bytes (rest ++ Byte.lineFeed :: back) := by
  cases kind with
  | eof => exact absurd rfl inner
  | invalid => exact absurd rfl valid
  | newline | lparen | rparen | lbrace | rbrace => exact shape
  | comment =>
    obtain ⟨opens, ends | ⟨-, opened⟩⟩ := shape
    · exact ⟨opens, Or.inl ends⟩
    · exact absurd (closed rfl) opened
  | command keyword => exact ⟨shape.1.before_lineFeed back, shape.2⟩
  | literal => exact ⟨shape.1.before_lineFeed back, shape.2⟩

/-! ## Comments that are cut off -/

/-- A comment that the end of its source cuts off: no closing mark stands in it. -/
def Lexeme.CutOff (lexeme : Lexeme) : Prop :=
  lexeme.kind = .comment ∧ ¬ commentClose <:+: lexeme.bytes.drop 2

instance (lexeme : Lexeme) : Decidable lexeme.CutOff := inferInstanceAs (Decidable (_ ∧ _))

/-- A comment that is cut off goes through the end of its source. -/
theorem length_le_stop_of_cutOff {source : Bytes} {comment : Lexeme} (mem : comment ∈ scan source)
    (cut : comment.CutOff) : source.length ≤ comment.span.stop := by
  have shape := scan_shape mem
  obtain ⟨before, after, place⟩ := List.append_of_mem mem
  rw [cut.1, ← (scan_split place).2.2.2.2] at shape
  obtain ⟨-, ends | ⟨last, -⟩⟩ := shape
  · exact absurd ends.1.isInfix cut.2
  · exact List.drop_eq_nil_iff.mp last

/-- If the last comment of a source is not cut off then none is. -/
theorem not_cutOff_of_last {source : Bytes}
    (last : ∀ comment ∈ ((scan source).filter (·.kind = .comment)).getLast?, ¬ comment.CutOff) :
    ∀ lexeme ∈ scan source, ¬ lexeme.CutOff := by
  intro lexeme mem cut
  have through := length_le_stop_of_cutOff mem cut
  have order := (scan_tiled source).pairwise.filter (·.kind = .comment)
  have member : lexeme ∈ (scan source).filter (·.kind = .comment) :=
    List.mem_filter.mpr ⟨mem, by simpa using cut.1⟩
  rcases List.eq_nil_or_concat ((scan source).filter (·.kind = .comment)) with none | ⟨others, final,
    comments⟩
  · rw [none] at member
    cases member
  · rw [List.concat_eq_append] at comments
    have isLast := last final (by rw [comments, List.getLast?_concat, Option.mem_some])
    rw [comments] at order member
    rcases List.mem_append.mp member with earlier | here
    · -- a comment behind one that goes through the end would lie outside the source
      have before := ((List.pairwise_append.mp order).2.2 lexeme earlier final (by simp)).2
      have found : final ∈ (scan source).filter (·.kind = .comment) := by simp [comments]
      obtain ⟨found, kind⟩ := List.mem_filter.mp found
      have some := scan_start_lt_stop found (by simp_all)
      obtain ⟨front, back, place⟩ := List.append_of_mem found
      have inside := (scan_split place).2.2.1
      omega
    · rw [List.mem_singleton.mp here] at cut
      exact isLast cut

/-! ## The join -/

/-- A line feed behind a source makes a newline where its `eof` was, and the scan goes on behind
it. -/
theorem scanFrom_join {mark : Mark} {front : Bytes}
    (valid : ∀ lexeme ∈ scanFrom mark front, lexeme.kind ≠ .invalid)
    (closed : ∀ lexeme ∈ scanFrom mark front, ¬ lexeme.CutOff) (back : Bytes) :
    ∃ body eof newline, scanFrom mark front = body ++ [eof] ∧ eof.kind = .eof ∧
      newline.kind = .newline ∧
      scanFrom mark (front ++ Byte.lineFeed :: back) = body ++ newline ::
        scanFrom ⟨mark.offset + front.length + 1, (mark.behind body).line + 1,
          mark.offset + front.length + 1⟩ back := by
  fun_induction scanFrom mark front with
  | case1 mark front cut lexeme eof =>
    obtain ⟨gap, -⟩ := Token.next_of_kind_eof eof
    have blank : ∀ byte ∈ front, Byte.isBlank byte := by
      intro byte mem
      exact Token.isBlank_of_mem_gap (gap.symm ▸ mem)
    have shape : Shape .newline [Byte.lineFeed] back := Or.inl rfl
    have next := Token.next_of_shape blank shape
    rw [List.append_assoc, List.singleton_append] at next
    refine ⟨[], lexeme, Cut.lexeme ⟨front, .newline, [Byte.lineFeed], back⟩ mark, rfl, eof, rfl, ?_⟩
    rw [scanFrom_of_next next (by simp)]
    rfl
  | case2 mark front cut lexeme other ih =>
    have whole : cut.gap ++ cut.bytes ++ cut.rest = front := Token.next_append front
    have blank : ∀ byte ∈ cut.gap, Byte.isBlank byte := by
      intro byte mem
      exact Token.isBlank_of_mem_gap mem
    have shape : Shape cut.kind cut.bytes (cut.rest ++ Byte.lineFeed :: back) := by
      refine (Token.shape_next front).before_lineFeed other ?_ ?_ back
      · exact valid lexeme List.mem_cons_self
      · intro comment
        by_contra opened
        exact closed lexeme List.mem_cons_self ⟨comment, opened⟩
    have next := Token.next_of_shape blank shape
    rw [← List.append_assoc, whole] at next
    obtain ⟨body, eof, newline, tail, last, feed, join⟩ :=
      ih (fun found mem => valid found (List.mem_cons_of_mem _ mem))
        (fun found mem => closed found (List.mem_cons_of_mem _ mem))
    refine ⟨lexeme :: body, eof, newline, by rw [tail]; rfl, last, feed, ?_⟩
    have length : mark.offset + front.length =
        (mark.past lexeme.kind lexeme.span.stop).offset + cut.rest.length := by
      rw [← whole, Mark.offset_past]
      simp only [lexeme, Cut.lexeme, List.length_append]
      omega
    rw [scanFrom_of_next next other, length]
    exact congrArg (lexeme :: ·) join

/-- **The scan of a join.**  Behind a source whose tokens are valid and whose comments are closed, a
line feed makes a newline where the `eof` was, and another source is scanned as it is by itself, so
many bytes and lines further on. -/
theorem scan_join {front : Bytes} (valid : ∀ lexeme ∈ scan front, lexeme.kind ≠ .invalid)
    (closed : ∀ lexeme ∈ scan front, ¬ lexeme.CutOff) (back : Bytes) :
    ∃ body eof newline, scan front = body ++ [eof] ∧ eof.kind = .eof ∧ newline.kind = .newline ∧
      scan (front ++ Byte.lineFeed :: back) = body ++ newline :: (scan back).map
        (·.shift (front.length + 1) ((scan front).countP (·.kind = .newline) + 1)) := by
  obtain ⟨body, eof, newline, whole, last, feed, join⟩ := scanFrom_join valid closed back
  refine ⟨body, eof, newline, whole, last, feed, ?_⟩
  have lines : (scan front).countP (·.kind = .newline) = (Mark.origin.behind body).line := by
    rw [scan, whole, Mark.line_behind]
    simp [Mark.origin, last]
  have start : Mark.origin.shift (front.length + 1) ((scan front).countP (·.kind = .newline) + 1) =
      ⟨Mark.origin.offset + front.length + 1, (Mark.origin.behind body).line + 1,
        Mark.origin.offset + front.length + 1⟩ := by
    simp [Mark.shift, Mark.origin, lines]
  rw [scan, join, ← start, scanFrom_shift]
  rfl

end LinkScript
