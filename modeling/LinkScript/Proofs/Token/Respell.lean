import LinkScript.Proofs.Token.Join
import Mathlib.Algebra.GroupWithZero.Nat

/-!
# Spelling tokens anew

A source can be changed token by token, with the blanks between its tokens kept.  When each new
spelling looks like a token behind the new spellings that follow it, the scan of the changed source
is the changed scan.

* `Follows` compares what stands behind a token before and after the change, as far as the token
  depends on it: `Shape.of_follows`.
* `Respelling` is a new spelling with what it must not change.  A newline may become longer, as the
  columns behind it count from its end; any other token keeps its length.
* `Respelling.scan_source` is the scan of the changed source.
-/

namespace LinkScript

/-! ## What stands behind a token -/

/-- Whether a literal can end before these bytes. -/
def Closes (rest : Bytes) : Prop :=
  rest = [] ∨
    (∃ byte ∈ [Byte.space, Byte.leftParen, Byte.rightParen, Byte.lineFeed],
      rest.head? = some byte) ∨
    [Byte.carriageReturn, Byte.lineFeed] <+: rest

/-- Every token that can stand before some bytes can stand before others. -/
structure Follows (rest other : Bytes) : Prop where
  nil : rest = [] → other = []
  lineFeed : other.head? = some Byte.lineFeed → rest.head? = some Byte.lineFeed
  closes : Closes rest → Closes other

namespace Follows

variable {gap rest other : Bytes}

/-- A rest follows as itself. -/
theorem refl (rest : Bytes) : Follows rest rest := ⟨id, id, id⟩

/-- Blanks in front may stand before anything. -/
theorem behind_gap (blank : ∀ byte ∈ gap, Byte.isBlank byte) (follows : Follows rest other) :
    Follows (gap ++ rest) (gap ++ other) := by
  cases gap with
  | nil => exact follows
  | cons first gap =>
    refine ⟨nofun, id, ?_⟩
    rintro (⟨⟨⟩⟩ | head | lineBreak)
    · exact Or.inr (Or.inl head)
    · have isBlank := blank first List.mem_cons_self
      rw [List.cons_append, List.cons_prefix_cons] at lineBreak
      rw [← lineBreak.1] at isBlank
      exact absurd isBlank (by decide)

end Follows

/-- **A token looks the same** before whatever follows it. -/
theorem Shape.of_follows {kind : TokenKind} {bytes rest other : Bytes}
    (shape : Shape kind bytes rest) (follows : Follows rest other) : Shape kind bytes other := by
  have literal : IsLiteral bytes rest → IsLiteral bytes other := fun literal =>
    ⟨literal.ne_nil, literal.run, follows.closes literal.behind⟩
  cases kind with
  | eof => exact ⟨shape.1, follows.nil shape.2⟩
  | invalid => exact ⟨shape.1, mt follows.lineFeed shape.2⟩
  | newline | lparen | rparen | lbrace | rbrace => exact shape
  | comment =>
    obtain ⟨opens, closed | ⟨nothing, opened⟩⟩ := shape
    · exact ⟨opens, Or.inl closed⟩
    · exact ⟨opens, Or.inr ⟨follows.nil nothing, opened⟩⟩
  | command keyword => exact ⟨literal shape.1, shape.2⟩
  | literal => exact ⟨literal shape.1, shape.2⟩

/-- What looks like a token other than `eof` has bytes. -/
theorem Shape.ne_nil {kind : TokenKind} {bytes rest : Bytes} (shape : Shape kind bytes rest)
    (inner : kind ≠ .eof) : bytes ≠ [] := by
  have cut := Token.next_of_shape (List.forall_mem_nil _) shape
  have taken : (Token.next ([] ++ bytes ++ rest)).kind ≠ .eof → _ := Token.next_bytes_ne_nil
  rw [cut] at taken
  exact taken inner

/-- A token that keeps its spelling may stand before what the token could stand before. -/
theorem Shape.follows {kind : TokenKind} {bytes rest : Bytes} (shape : Shape kind bytes rest)
    (inner : kind ≠ .eof) (other : Bytes) : Follows (bytes ++ rest) (bytes ++ other) := by
  have some := shape.ne_nil inner
  have head (back : Bytes) : (bytes ++ back).head? = bytes.head? :=
    List.head?_append_of_ne_nil bytes some
  refine ⟨fun nothing => absurd (List.append_eq_nil_iff.mp nothing).1 some, ?_, ?_⟩
  · rw [head, head]
    exact id
  · rintro (nothing | first | ⟨more, whole⟩)
    · exact absurd (List.append_eq_nil_iff.mp nothing).1 some
    · rw [head] at first
      exact Or.inr (Or.inl (by rwa [head]))
    · -- a line break is cut off as one token, so this one is it
      have lineBreak : Shape .newline [Byte.carriageReturn, Byte.lineFeed] more := Or.inr rfl
      have cut := Token.cutToken_of_shape shape
      rw [← whole, Token.cutToken_of_shape lineBreak] at cut
      obtain ⟨-, rfl, -⟩ := cut
      exact Or.inr (Or.inr (List.prefix_append _ other))

/-! ## New spellings -/

/-- A new kind and new bytes for every lexeme, which fit wherever the lexeme fits. -/
structure Respelling where
  kind : Lexeme → TokenKind
  bytes : Lexeme → Bytes
  /-- The new bytes look like the new kind. -/
  shape : ∀ {lexeme : Lexeme} {rest other : Bytes}, Shape lexeme.kind lexeme.bytes rest →
    Follows rest other → Shape (kind lexeme) (bytes lexeme) other
  /-- The new bytes may stand where those of the lexeme may. -/
  follows : ∀ {lexeme : Lexeme} {rest other : Bytes}, lexeme.kind ≠ .eof →
    Shape lexeme.kind lexeme.bytes rest → Follows rest other →
      Follows (lexeme.bytes ++ rest) (bytes lexeme ++ other)
  eof_iff : ∀ {lexeme : Lexeme}, kind lexeme = .eof ↔ lexeme.kind = .eof
  newline_iff : ∀ {lexeme : Lexeme}, kind lexeme = .newline ↔ lexeme.kind = .newline
  length_le : ∀ lexeme : Lexeme, lexeme.bytes.length ≤ (bytes lexeme).length
  /-- Only a newline becomes longer. -/
  length_eq : ∀ {lexeme : Lexeme}, lexeme.kind ≠ .newline →
    (bytes lexeme).length = lexeme.bytes.length

namespace Respelling

variable (spelling : Respelling)

/-- How much longer a lexeme becomes. -/
def growth (lexeme : Lexeme) : Nat := (spelling.bytes lexeme).length - lexeme.bytes.length

/-- The lexeme in its new spelling, so many bytes further on. -/
def lexeme (shift : Nat) (lexeme : Lexeme) : Lexeme where
  kind := spelling.kind lexeme
  span := ⟨lexeme.span.start + shift, lexeme.span.stop + (shift + spelling.growth lexeme)⟩
  bytes := spelling.bytes lexeme
  position := lexeme.position

/-- Lexemes in their new spelling, each further on by what those before it have become longer. -/
def lexemes (shift : Nat) : List Lexeme → List Lexeme
  | [] => []
  | first :: rest => spelling.lexeme shift first :: lexemes (shift + spelling.growth first) rest

/-- The new spellings of lexemes, with the blanks that a source has between them from an offset
on. -/
def spelled (source : Bytes) (offset : Nat) : List Lexeme → Bytes
  | [] => []
  | first :: rest =>
    Span.slice ⟨offset, first.span.start⟩ source ++ spelling.bytes first ++
      spelled source first.span.stop rest

/-- A source with all its tokens in their new spelling. -/
def source (source : Bytes) : Bytes := spelling.spelled source 0 (scan source)

/-- Only newlines may grow. -/
theorem growth_eq_zero {lexeme : Lexeme} (other : lexeme.kind ≠ .newline) :
    spelling.growth lexeme = 0 := by
  rw [growth, spelling.length_eq other, Nat.sub_self]

/-- An `eof` stays empty. -/
theorem bytes_eq_nil {lexeme : Lexeme} (eof : lexeme.kind = .eof) (empty : lexeme.bytes = []) :
    spelling.bytes lexeme = [] := by
  have length : (spelling.bytes lexeme).length = lexeme.bytes.length :=
    spelling.length_eq (by simp [eof])
  rw [empty, List.length_nil] at length
  exact List.length_eq_zero_iff.mp length

/-- The blanks in front of a lexeme are kept, and the lexeme is spelled anew. -/
theorem spelled_cons (front gap back : Bytes) {first : Lexeme} (rest : List Lexeme)
    (start : first.span.start = front.length + gap.length) :
    spelling.spelled (front ++ (gap ++ back)) front.length (first :: rest) =
      gap ++ spelling.bytes first ++
        spelling.spelled (front ++ (gap ++ back)) first.span.stop rest := by
  have middle := Span.slice_middle front gap back
  rw [List.append_assoc] at middle
  rw [spelled, start, middle]

/-- A newline ends its line behind its new spelling, and no other token ends one. -/
theorem past_shift (mark : Mark) (shift stop : Nat) (lexeme : Lexeme) :
    (mark.shift shift 0).past (spelling.kind lexeme) (stop + (shift + spelling.growth lexeme)) =
      (mark.past lexeme.kind stop).shift (shift + spelling.growth lexeme) 0 := by
  unfold Mark.past
  by_cases newline : lexeme.kind = .newline
  · rw [if_pos newline, if_pos (spelling.newline_iff.mpr newline)]
    rfl
  · rw [if_neg newline, if_neg (mt spelling.newline_iff.mp newline),
      spelling.growth_eq_zero newline]
    rfl

/-- What is cut off in its new spelling is the lexeme in its new spelling. -/
theorem lexeme_shift (mark : Mark) (shift : Nat) (cut : Cut) (rest : Bytes) :
    (Cut.mk cut.gap (spelling.kind (cut.lexeme mark)) (spelling.bytes (cut.lexeme mark))
      rest).lexeme (mark.shift shift 0) = spelling.lexeme shift (cut.lexeme mark) := by
  have place : (mark.shift shift 0).position cut.gap.length = mark.position cut.gap.length := by
    rw [Mark.position_shift]
    simp [Position.lower]
  have longer : (cut.lexeme mark).bytes.length + spelling.growth (cut.lexeme mark) =
      (spelling.bytes (cut.lexeme mark)).length :=
    Nat.add_sub_cancel' (spelling.length_le _)
  have span : Span.mk (mark.offset + shift + cut.gap.length)
      (mark.offset + shift + cut.gap.length + (spelling.bytes (cut.lexeme mark)).length) =
      ⟨(cut.lexeme mark).span.start + shift,
        (cut.lexeme mark).span.stop + (shift + spelling.growth (cut.lexeme mark))⟩ := by
    rw [← longer, Span.mk.injEq]
    simp only [Cut.lexeme]
    constructor <;> omega
  rw [lexeme, ← span]
  conv_lhs => rw [Cut.lexeme, place]
  rfl

/-- At the end of a source nothing is spelled anew. -/
theorem spelled_eof {mark : Mark} {input front : Bytes} (length : front.length = mark.offset)
    (eof : (Token.next input).kind = .eof) :
    spelling.spelled (front ++ input) mark.offset [(Token.next input).lexeme mark] = input := by
  obtain ⟨gap, bytes⟩ := Token.next_of_kind_eof eof
  have start : ((Token.next input).lexeme mark).span.start = front.length + input.length := by
    rw [Cut.lexeme, gap, length]
  have cut := spelling.spelled_cons front input [] [] start
  rw [spelling.bytes_eq_nil eof bytes] at cut
  simpa [length, spelled] using cut

/-- **The scan of new spellings** from a mark that is further on, with what the new spellings stand
behind. -/
theorem scanFrom_spelled (mark : Mark) (input front : Bytes) (length : front.length = mark.offset)
    (shift : Nat) :
    scanFrom (mark.shift shift 0)
        (spelling.spelled (front ++ input) mark.offset (scanFrom mark input)) =
      spelling.lexemes shift (scanFrom mark input) ∧
    Follows input (spelling.spelled (front ++ input) mark.offset (scanFrom mark input)) := by
  fun_induction scanFrom mark input generalizing front shift with
  | case1 mark input cut lexeme eof =>
    rw [spelling.spelled_eof length eof]
    refine ⟨?_, Follows.refl input⟩
    have bytes : cut.bytes = [] := (Token.next_of_kind_eof eof).2
    have kept : Cut.mk cut.gap (spelling.kind lexeme) (spelling.bytes lexeme) cut.rest = cut := by
      rw [spelling.eof_iff.mpr eof, spelling.bytes_eq_nil eof bytes, ← eof, ← bytes]
    have respelled := spelling.lexeme_shift mark shift cut cut.rest
    rw [kept] at respelled
    rw [scanFrom_of_eof eof, lexemes, lexemes, respelled]
  | case2 mark input cut lexeme other ih =>
    have whole : cut.gap ++ (cut.bytes ++ cut.rest) = input := by
      rw [← List.append_assoc]
      exact Token.next_append input
    have blank : ∀ byte ∈ cut.gap, Byte.isBlank byte := fun _ => Token.isBlank_of_mem_gap
    have behind : (mark.past lexeme.kind lexeme.span.stop).offset = lexeme.span.stop :=
      Mark.offset_past _ _ _
    have covered : (front ++ cut.gap ++ cut.bytes).length = lexeme.span.stop := by
      simp [lexeme, Cut.lexeme, length, Nat.add_assoc]
    have same : front ++ cut.gap ++ cut.bytes ++ cut.rest = front ++ input := by
      simp [← whole]
    obtain ⟨tail, follows⟩ := ih (front ++ cut.gap ++ cut.bytes) (covered.trans behind.symm)
      (shift + spelling.growth lexeme)
    rw [same, behind] at tail follows
    have start : lexeme.span.start = front.length + cut.gap.length := by
      rw [length]
      rfl
    have spelled := spelling.spelled_cons front cut.gap (cut.bytes ++ cut.rest)
      (scanFrom (mark.past lexeme.kind lexeme.span.stop) cut.rest) start
    rw [whole, length] at spelled
    have looks : Shape lexeme.kind lexeme.bytes cut.rest := Token.shape_next input
    have next := Token.next_of_shape blank (spelling.shape looks follows)
    rw [spelled]
    constructor
    · rw [scanFrom_of_next next (mt spelling.eof_iff.mp other), spelling.lexeme_shift,
        Respelling.lexemes]
      refine congrArg (_ :: ·) ?_
      rw [← tail, ← past_shift]
      rfl
    · have stands := (spelling.follows other looks follows).behind_gap blank
      rw [List.append_assoc]
      exact whole ▸ stands

/-- **The scan of a source whose tokens are spelled anew** is the scan of the source, spelled
anew. -/
theorem scan_source (source : Bytes) :
    scan (spelling.source source) = spelling.lexemes 0 (scan source) :=
  (spelling.scanFrom_spelled Mark.origin source [] rfl 0).1

/-! ## Offsets -/

/-- How many bytes the lexemes that begin before an offset have become longer. -/
def grown (found : List Lexeme) (offset : Nat) : Nat :=
  ((found.filter (·.span.start < offset)).map spelling.growth).sum

/-- The lexeme of a source in its new spelling and at its new place. -/
def moved (source : Bytes) (lexeme : Lexeme) : Lexeme where
  kind := spelling.kind lexeme
  span := ⟨lexeme.span.start + spelling.grown (scan source) lexeme.span.start,
    lexeme.span.stop + spelling.grown (scan source) lexeme.span.stop⟩
  bytes := spelling.bytes lexeme
  position := lexeme.position

variable {spelling} {offset : Nat} {first : Lexeme} {rest : List Lexeme}

/-- A lexeme that begins before an offset has grown before it. -/
theorem grown_cons_of_lt (before : first.span.start < offset) :
    spelling.grown (first :: rest) offset = spelling.growth first + spelling.grown rest offset := by
  simp [grown, before]

/-- A lexeme that begins at an offset or behind it has not grown before it. -/
theorem grown_cons_of_le (behind : offset ≤ first.span.start) :
    spelling.grown (first :: rest) offset = spelling.grown rest offset := by
  simp [grown, behind]

/-- Nothing has grown before the first lexeme. -/
theorem grown_eq_zero {found : List Lexeme}
    (behind : ∀ lexeme ∈ found, offset ≤ lexeme.span.start) :
    spelling.grown found offset = 0 := by
  have none : found.filter (·.span.start < offset) = [] := by
    rw [List.filter_eq_nil_iff]
    intro lexeme mem
    simpa using behind lexeme mem
  rw [grown, none]
  rfl

/-- Each lexeme is further on by what the lexemes before it have become longer. -/
theorem lexemes_eq_map {input : Bytes} {found : List Lexeme} (tiled : Tiled offset input found)
    (shift : Nat) :
    spelling.lexemes shift found = found.map fun lexeme =>
      { kind := spelling.kind lexeme
        span := ⟨lexeme.span.start + (shift + spelling.grown found lexeme.span.start),
          lexeme.span.stop + (shift + spelling.grown found lexeme.span.stop)⟩
        bytes := spelling.bytes lexeme
        position := lexeme.position } := by
  induction tiled generalizing shift with
  | @eof offset gap last _ kind _ span =>
    have same : spelling.growth last = 0 := spelling.growth_eq_zero (by simp [kind])
    have none : spelling.grown [last] (offset + gap.length) = 0 := grown_eq_zero (by simp [span])
    simp [lexemes, lexeme, same, span, none]
  | @token offset gap rest first others _ _ bytes span tail ih =>
    have taken := List.length_pos_iff.mpr bytes
    have inside : first.span.start < first.span.stop := by
      rw [span]
      simpa using taken
    have stop : first.span.stop = offset + gap.length + first.bytes.length := by rw [span]
    have later : ∀ lexeme ∈ others, first.span.stop ≤ lexeme.span.start := by
      rw [stop]
      exact tail.offset_le_start
    have before : spelling.grown (first :: others) first.span.start = 0 := by
      rw [grown_cons_of_le (Nat.le_refl _)]
      exact grown_eq_zero fun lexeme mem => Nat.le_of_lt (inside.trans_le (later lexeme mem))
    have through : spelling.grown (first :: others) first.span.stop = spelling.growth first := by
      rw [grown_cons_of_lt inside, grown_eq_zero later, Nat.add_zero]
    rw [lexemes, ih, List.map_cons, before, through]
    refine congrArg₂ _ rfl (List.map_congr_left ?_)
    intro lexeme mem
    have further := later lexeme mem
    have ordered := tail.start_le_stop lexeme mem
    rw [grown_cons_of_lt (by omega), grown_cons_of_lt (by omega), Nat.add_assoc, Nat.add_assoc]

/-- **The scan of a source whose tokens are spelled anew**, lexeme by lexeme. -/
theorem scan_source_eq_map (source : Bytes) :
    scan (spelling.source source) = (scan source).map (spelling.moved source) := by
  rw [scan_source, lexemes_eq_map (scan_tiled source)]
  simp only [Nat.zero_add]
  rfl

/-- A respelling that makes no token longer moves none. -/
theorem moved_of_length (same : ∀ lexeme, (spelling.bytes lexeme).length = lexeme.bytes.length)
    (source : Bytes) (lexeme : Lexeme) : spelling.moved source lexeme =
      { lexeme with kind := spelling.kind lexeme, bytes := spelling.bytes lexeme } := by
  have grown (found : List Lexeme) (offset : Nat) : spelling.grown found offset = 0 := by
    apply List.sum_eq_zero_iff_forall_eq_nat.mpr
    rw [List.forall_mem_map]
    intro lexeme _
    rw [growth, same, Nat.sub_self]
  unfold moved
  simp only [grown, Nat.add_zero]

end Respelling

end LinkScript
