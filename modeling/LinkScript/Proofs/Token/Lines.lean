import LinkScript.Proofs.Token.Position
import LinkScript.Proofs.Token.Shape
import LinkScript.Proofs.Token.Coverage
import Mathlib.Data.List.DropRight

/-!
# Places and lines

Lines and columns are counted from the newline tokens that a scan has found.  Here they are tied to
the order of the tokens and to the lines of the source.

* `Position.Precedes` is the order in which people read places.  Places come in this order
  (`scan_precedes`), so no two tokens share one.
* `placeOf source offset` is the place of an offset by the line feeds among the bytes before it.
* `Mark.OnLine` says that a mark agrees with the line feeds before it.  A token keeps this up,
  unless it is a comment with a line feed inside (`Mark.OnLine.past`), so a scan without such
  comments gives each token its place by the line feeds (`scan_position_eq_placeOf`).
* `tokenize_positions` puts this together for a source that tokenizes.
-/

namespace LinkScript

/-! ## The order of places -/

/-- Whether a place comes before another one: in an earlier line, or further left in the same. -/
def Position.Precedes (a b : Position) : Prop :=
  a.line < b.line ∨ a.line = b.line ∧ a.column < b.column

/-- A place does not come before itself. -/
theorem Position.Precedes.ne {a b : Position} (h : a.Precedes b) : a ≠ b := by
  rintro rfl
  rcases h with line | ⟨-, column⟩
  · exact Int.lt_irrefl _ line
  · exact Int.lt_irrefl _ column

section

variable {source : Bytes}

/-- The last newline before a lexeme, if there is one, ends where the lexeme begins or before. -/
theorem endFrom_newlines_le_start {before after : List Lexeme} {lexeme : Lexeme}
    (place : scan source = before ++ lexeme :: after) :
    endFrom 0 (before.filter (·.kind = .newline)) ≤ lexeme.span.start := by
  cases last : (before.filter (·.kind = .newline)).getLast? with
  | none => simp [endFrom, last]
  | some newline =>
    have mem : newline ∈ before := List.mem_of_mem_filter (List.mem_of_getLast? last)
    have order := (scan_tiled source).pairwise
    rw [place, List.pairwise_append] at order
    simpa [endFrom, last] using (order.2.2 newline mem lexeme List.mem_cons_self).2

/-- **Places come in the order of the lexemes.**  A newline between two lexemes puts them into
different lines, and in one line the columns grow with the offsets. -/
theorem position_precedes {before between after : List Lexeme} {a b : Lexeme}
    (place : scan source = before ++ a :: (between ++ b :: after)) :
    a.position.Precedes b.position := by
  have later : scan source = (before ++ a :: between) ++ b :: after := by simpa using place
  rw [scan_position place, scan_position later]
  by_cases newline : ∃ lexeme ∈ a :: between, lexeme.kind = .newline
  · left
    have some : 0 < (a :: between).countP (·.kind = .newline) := by
      simpa [List.countP_pos_iff] using newline
    rw [List.countP_append]
    simp only
    omega
  · right
    have none : (a :: between).filter (·.kind = .newline) = [] := by
      simpa [List.filter_eq_nil_iff] using newline
    have same : (a :: between).countP (·.kind = .newline) = 0 := by
      rw [List.countP_eq_length_filter, none, List.length_nil]
    have order := (scan_tiled source).pairwise
    rw [place, List.pairwise_append, List.pairwise_cons] at order
    obtain ⟨start, stop⟩ := order.2.1.1 b (by simp)
    rw [List.countP_append, List.filter_append, none, same, List.append_nil]
    exact ⟨rfl, by simp only; omega⟩

/-- The places of what is left of a scan come in order. -/
theorem precedes_of_append (front back : List Lexeme) (place : scan source = front ++ back) :
    back.Pairwise fun a b => a.position.Precedes b.position := by
  induction back generalizing front with
  | nil => exact List.Pairwise.nil
  | cons lexeme rest ih =>
    refine List.pairwise_cons.mpr ⟨?_, ih (front ++ [lexeme]) (by simpa using place)⟩
    intro later mem
    obtain ⟨between, after, rfl⟩ := List.append_of_mem mem
    exact position_precedes place

/-- The places of a scan come in order. -/
theorem scan_precedes (source : Bytes) :
    (scan source).Pairwise fun a b => a.position.Precedes b.position :=
  precedes_of_append [] (scan source) rfl

end

/-! ## The lines of a source -/

/-- The last line of a byte string: the bytes behind its last line feed, or all of them. -/
def lastLine (front : Bytes) : Bytes := front.rtakeWhile (· ≠ Byte.lineFeed)

/-- The place of an offset in a source, by the line feeds among the bytes before it: how many there
are, and how many bytes stand behind the last of them, or before the offset if there is none. -/
def placeOf (source : Bytes) (offset : Nat) : Position where
  line := (source.take offset).count Byte.lineFeed
  column := (lastLine (source.take offset)).length

/-- Bytes without a line feed go on with the line. -/
theorem lastLine_append {front more : Bytes} (same : Byte.lineFeed ∉ more) :
    lastLine (front ++ more) = lastLine front ++ more := by
  have all : ∀ byte ∈ more.reverse, decide (byte ≠ Byte.lineFeed) = true := by
    intro byte mem
    rw [decide_eq_true_eq]
    rintro rfl
    exact same (List.mem_reverse.mp mem)
  rw [lastLine, List.rtakeWhile, List.reverse_append, List.takeWhile_append_of_pos all,
    List.reverse_append, List.reverse_reverse]
  rfl

/-- A line feed begins a line. -/
theorem lastLine_concat_lineFeed (front : Bytes) : lastLine (front ++ [Byte.lineFeed]) = [] := by
  simp [lastLine]

/-- A token has no line feed, unless it is a newline, which ends with its only one, or a comment. -/
theorem Shape.lineFeed_cases {kind : TokenKind} {bytes rest : Bytes}
    (shape : Shape kind bytes rest) (comment : kind = .comment → Byte.lineFeed ∉ bytes) :
    kind ≠ .newline ∧ Byte.lineFeed ∉ bytes ∨
      kind = .newline ∧ ∃ front, bytes = front ++ [Byte.lineFeed] ∧ Byte.lineFeed ∉ front := by
  have free {run : Bytes} (isRun : LiteralRun run) : Byte.lineFeed ∉ run := by
    intro mem
    exact isRun.inside _ mem (by simp)
  cases kind with
  | newline =>
    rcases shape with rfl | rfl
    · exact Or.inr ⟨rfl, [], rfl, by simp⟩
    · exact Or.inr ⟨rfl, [Byte.carriageReturn], rfl, by decide⟩
  | comment => exact Or.inl ⟨by simp, comment rfl⟩
  | eof =>
    obtain ⟨rfl, -⟩ := shape
    exact Or.inl ⟨by simp, by simp⟩
  | invalid =>
    obtain ⟨⟨run, isRun, rfl⟩, -⟩ := shape
    refine Or.inl ⟨by simp, ?_⟩
    rw [List.mem_append, not_or]
    exact ⟨free isRun, by decide⟩
  | lparen | rparen | lbrace | rbrace =>
    obtain rfl := shape
    exact Or.inl ⟨by simp, by decide⟩
  | command keyword => exact Or.inl ⟨by simp, free shape.1.run⟩
  | literal => exact Or.inl ⟨by simp, free shape.1.run⟩

/-- Whether a mark agrees with the bytes before it: it stands behind them, in the line that their
line feeds make, and knows where that line begins. -/
structure Mark.OnLine (mark : Mark) (front : Bytes) : Prop where
  offset : mark.offset = front.length
  line : mark.line = front.count Byte.lineFeed
  lineStart : mark.lineStart + (lastLine front).length = front.length

namespace Mark.OnLine

variable {mark : Mark} {front gap : Bytes}

/-- The beginning of a source agrees with no bytes. -/
theorem origin : Mark.origin.OnLine [] := ⟨rfl, rfl, rfl⟩

/-- Blanks hold no line feed. -/
theorem not_mem_gap (blank : ∀ byte ∈ gap, Byte.isBlank byte) : Byte.lineFeed ∉ gap := by
  intro mem
  exact absurd (blank _ mem) (by decide)

/-- A mark that agrees with the bytes before it gives a token behind blanks its place. -/
theorem position_eq (h : mark.OnLine front) (blank : ∀ byte ∈ gap, Byte.isBlank byte)
    (rest : Bytes) :
    mark.position gap.length = placeOf (front ++ gap ++ rest) (front.length + gap.length) := by
  have feedless := not_mem_gap blank
  have before : (front ++ gap ++ rest).take (front.length + gap.length) = front ++ gap := by
    rw [← List.length_append, List.take_left]
  have start := h.lineStart
  rw [placeOf, before, lastLine_append feedless, List.count_append,
    List.count_eq_zero.mpr feedless, List.length_append, Mark.position, h.offset, h.line]
  simp only [Position.mk.injEq]
  exact ⟨rfl, by omega⟩

/-- **A token keeps its mark in agreement** with the bytes before it, unless it is a comment with a
line feed inside. -/
theorem past (h : mark.OnLine front) (blank : ∀ byte ∈ gap, Byte.isBlank byte) {kind : TokenKind}
    {bytes rest : Bytes} (shape : Shape kind bytes rest)
    (comment : kind = .comment → Byte.lineFeed ∉ bytes) :
    (mark.past kind (mark.offset + gap.length + bytes.length)).OnLine (front ++ gap ++ bytes) := by
  have feedless := not_mem_gap blank
  have start := h.lineStart
  have offset : (mark.past kind (mark.offset + gap.length + bytes.length)).offset =
      (front ++ gap ++ bytes).length := by
    rw [Mark.offset_past, h.offset, List.length_append, List.length_append]
  rcases shape.lineFeed_cases comment with ⟨other, none⟩ | ⟨rfl, run, rfl, none⟩
  · refine ⟨offset, ?_, ?_⟩
    · simp [Mark.past, other, h.line, List.count_eq_zero.mpr feedless, List.count_eq_zero.mpr none]
    · rw [lastLine_append none, lastLine_append feedless]
      simp only [Mark.past, if_neg other, List.length_append]
      omega
  · refine ⟨offset, ?_, ?_⟩
    · simp [Mark.past, h.line, List.count_eq_zero.mpr feedless, List.count_eq_zero.mpr none]
    · rw [← List.append_assoc, lastLine_concat_lineFeed]
      simp only [Mark.past, if_pos, h.offset, List.length_append, List.length_nil]
      omega

/-- A mark that agrees with the bytes before it gives the next token its place. -/
theorem lexeme_position_eq (h : mark.OnLine front) (input : Bytes) :
    ((Token.next input).lexeme mark).position =
      placeOf (front ++ input) ((Token.next input).lexeme mark).span.start := by
  have blank : ∀ byte ∈ (Token.next input).gap, Byte.isBlank byte :=
    fun _ => Token.isBlank_of_mem_gap
  have place := h.position_eq blank ((Token.next input).bytes ++ (Token.next input).rest)
  rw [List.append_assoc, ← List.append_assoc (Token.next input).gap, Token.next_append] at place
  simpa only [Cut.lexeme, h.offset] using place

end Mark.OnLine

/-- A scan from a mark that agrees with the bytes before it gives each token its place by the line
feeds, if no comment has one inside. -/
theorem scanFrom_position_eq_placeOf (mark : Mark) (input : Bytes) : ∀ front : Bytes,
    mark.OnLine front →
    (∀ lexeme ∈ scanFrom mark input, lexeme.kind = .comment → Byte.lineFeed ∉ lexeme.bytes) →
    ∀ lexeme ∈ scanFrom mark input,
      lexeme.position = placeOf (front ++ input) lexeme.span.start := by
  fun_induction scanFrom mark input with
  | case1 mark input cut lexeme eof =>
    intro front agrees _
    exact List.forall_mem_singleton.mpr (agrees.lexeme_position_eq input)
  | case2 mark input cut lexeme other ih =>
    intro front agrees comments
    have whole : cut.gap ++ (cut.bytes ++ cut.rest) = input := by
      rw [← List.append_assoc]
      exact Token.next_append input
    obtain ⟨comment, behind⟩ := List.forall_mem_cons.mp comments
    have blank : ∀ byte ∈ cut.gap, Byte.isBlank byte := fun _ => Token.isBlank_of_mem_gap
    have next := agrees.past blank (Token.shape_next input) comment
    have places := ih _ next behind
    rw [List.append_assoc, List.append_assoc, whole] at places
    exact List.forall_mem_cons.mpr ⟨agrees.lexeme_position_eq input, places⟩

/-- **Without line feeds in comments**, the place of a token is the one that the line feeds of the
source give it. -/
theorem scan_position_eq_placeOf {source : Bytes} (comments : ∀ lexeme ∈ scan source,
    lexeme.kind = .comment → Byte.lineFeed ∉ lexeme.bytes) :
    ∀ lexeme ∈ scan source, lexeme.position = placeOf source lexeme.span.start :=
  scanFrom_position_eq_placeOf _ _ [] .origin comments

/-- **The index of places.**  Let a source tokenize.  It has as many places as tokens.  The line of
a token is the number of newlines before it, and its column, which is not negative, the number of
bytes between the last of these, or the beginning, and the token.  Places come strictly in order, so
no two tokens share one.  If no comment has a line feed inside, the line of a token is the number of
line feeds before it in the source, and its column the number of bytes behind the last of them. -/
theorem tokenize_positions {source : Bytes} {lexemes : List Lexeme}
    (read : tokenize source = .ok lexemes) :
    (lexemes.map (·.position)).length = (lexemes.map (·.toToken)).length ∧
    (∀ index (inside : index < lexemes.length),
      let newlines := (lexemes.take index).filter (·.kind = .newline)
      lexemes[index].position =
        ⟨newlines.length, lexemes[index].span.start - (endFrom 0 newlines : Int)⟩ ∧
      0 ≤ lexemes[index].position.column) ∧
    (lexemes.map (·.position)).Pairwise Position.Precedes ∧
    (lexemes.map (·.position)).Nodup ∧
    ((∀ lexeme ∈ lexemes, lexeme.kind = .comment → Byte.lineFeed ∉ lexeme.bytes) →
      ∀ lexeme ∈ lexemes, lexeme.position = placeOf source lexeme.span.start) := by
  obtain rfl := scan_of_tokenize read
  have order : ((scan source).map (·.position)).Pairwise Position.Precedes :=
    List.pairwise_map.mpr (scan_precedes source)
  refine ⟨by simp, ?_, order, order.imp fun before => before.ne, scan_position_eq_placeOf⟩
  intro index inside newlines
  have place : scan source = (scan source).take index ++ (scan source)[index] ::
      (scan source).drop (index + 1) := by
    rw [← List.drop_eq_getElem_cons, List.take_append_drop]
  have position := scan_position place
  have behind := endFrom_newlines_le_start place
  rw [List.countP_eq_length_filter] at position
  refine ⟨position, ?_⟩
  rw [position]
  exact Int.sub_nonneg_of_le (Int.ofNat_le.mpr behind)

/-- A script with both kinds of line break, with a comment before one of them and a comment that the
end of the source breaks off. -/
def brokenLines : Bytes := Text.Utf8.encode "/* a */\r\n\tINPUT(b)\n  /* c"

/-- Its comments have no line feed inside, so its places are those by the line feeds. -/
theorem tokenize_positions_brokenLines :
    tokenize brokenLines = .ok (scan brokenLines) ∧
    (scan brokenLines).map (·.position) =
      [⟨0, 0⟩, ⟨0, 7⟩, ⟨1, 1⟩, ⟨1, 6⟩, ⟨1, 7⟩, ⟨1, 8⟩, ⟨1, 9⟩, ⟨2, 2⟩, ⟨2, 6⟩] ∧
    (scan brokenLines).map (fun lexeme => placeOf brokenLines lexeme.span.start) =
      (scan brokenLines).map (·.position) := by
  have read : tokenize brokenLines = .ok (scan brokenLines) := tokenize_eq_scan (by decide +kernel)
  have places := (tokenize_positions read).2.2.2.2 (by decide +kernel)
  exact ⟨read, by decide +kernel, List.map_congr_left fun lexeme mem => (places lexeme mem).symm⟩

end LinkScript
