import LinkScript.Token.Scan

/-!
# A scan covers its source

Nothing of a source is lost between its lexemes and nothing is read twice.

* `Tiled offset input lexemes` says that the bytes `input`, which begin at `offset`, are cut into
  `lexemes` with blanks between them and one `eof` at the end.  Every scan is such a tiling
  (`scan_tiled`), whatever bytes it meets and however many tokens are invalid.
* From a tiling alone follow the order of the spans (`Tiled.pairwise`), the place of each lexeme
  among the bytes (`Tiled.split`), the number of lexemes (`Tiled.length_le`) and the way back to
  the source (`Tiled.pieces_eq`).
* `scan_covers` puts these together for a whole source.
* A source tokenizes if no token of its scan is invalid, and its lexemes are then those of the scan.
  The first invalid token refuses it otherwise.
-/

namespace LinkScript

/-! ## Spans that cut a string apart -/

/-- The span of the middle of three strings cuts it out of their join. -/
theorem Span.slice_middle (front middle back : Bytes) :
    Span.slice ⟨front.length, front.length + middle.length⟩ (front ++ middle ++ back) = middle := by
  simp [Span.slice]

/-- Where a list of lexemes ends: behind its last one, or at the offset it begins at. -/
def endFrom (offset : Nat) (lexemes : List Lexeme) : Nat :=
  (lexemes.getLast?.map (·.span.stop)).getD offset

/-- No lexemes end where they begin. -/
@[simp] theorem endFrom_nil (offset : Nat) : endFrom offset [] = offset := rfl

/-- Lexemes end where those behind the first one do. -/
@[simp] theorem endFrom_cons (offset : Nat) (lexeme : Lexeme) (lexemes : List Lexeme) :
    endFrom offset (lexeme :: lexemes) = endFrom lexeme.span.stop lexemes := by
  cases lexemes with
  | nil => rfl
  | cons second rest => simp [endFrom, List.getLast?_cons]

/-- The bytes of a source between lexemes and inside them, in order from an offset on. -/
def pieces (source : Bytes) (offset : Nat) : List Lexeme → Bytes
  | [] => []
  | lexeme :: rest =>
    Span.slice ⟨offset, lexeme.span.start⟩ source ++ lexeme.span.slice source ++
      pieces source lexeme.span.stop rest

/-! ## Lists that end in their only `eof` -/

/-- A list of lexemes with one `eof`, which stands at its end. -/
inductive Ended : List Lexeme → Prop where
  | eof {lexeme : Lexeme} : lexeme.kind = .eof → Ended [lexeme]
  | cons {lexeme : Lexeme} {rest : List Lexeme} : lexeme.kind ≠ .eof → Ended rest →
      Ended (lexeme :: rest)

namespace Ended

/-- What is left behind a lexeme other than `eof` still ends in `eof`. -/
theorem tail {lexeme : Lexeme} {rest : List Lexeme} (h : Ended (lexeme :: rest))
    (kind : lexeme.kind ≠ .eof) : Ended rest := by
  cases h with
  | eof eof => exact absurd eof kind
  | cons _ rest => exact rest

/-- A list that ends in `eof` has a first lexeme. -/
theorem exists_cons {lexemes : List Lexeme} (h : Ended lexemes) :
    ∃ lexeme rest, lexemes = lexeme :: rest := by
  cases h with
  | eof _ => exact ⟨_, _, rfl⟩
  | cons _ _ => exact ⟨_, _, rfl⟩

/-- Nothing follows the `eof`. -/
theorem rest_eq_nil {lexeme : Lexeme} {rest : List Lexeme} (h : Ended (lexeme :: rest))
    (kind : lexeme.kind = .eof) : rest = [] := by
  cases h with
  | eof _ => rfl
  | cons other _ => exact absurd kind other

end Ended

/-! ## Tilings -/

/-- A byte string that begins at an offset, cut into lexemes with blanks between them. -/
inductive Tiled : Nat → Bytes → List Lexeme → Prop where
  | eof {offset : Nat} {gap : Bytes} {lexeme : Lexeme} :
      (∀ byte ∈ gap, Byte.isBlank byte) → lexeme.kind = .eof → lexeme.bytes = [] →
      lexeme.span = ⟨offset + gap.length, offset + gap.length⟩ →
      Tiled offset gap [lexeme]
  | token {offset : Nat} {gap rest : Bytes} {lexeme : Lexeme} {lexemes : List Lexeme} :
      (∀ byte ∈ gap, Byte.isBlank byte) → lexeme.kind ≠ .eof → lexeme.bytes ≠ [] →
      lexeme.span = ⟨offset + gap.length, offset + gap.length + lexeme.bytes.length⟩ →
      Tiled (offset + gap.length + lexeme.bytes.length) rest lexemes →
      Tiled offset (gap ++ lexeme.bytes ++ rest) (lexeme :: lexemes)

namespace Token

/-- A literal is a keyword or a plain literal. -/
theorem literalKind_ne_eof (bytes : Bytes) : literalKind bytes ≠ .eof := by
  unfold literalKind
  split <;> simp

/-- A byte that is a token by itself is not the end. -/
theorem singleByte?_ne_eof (byte : UInt8) : singleByte? byte ≠ some .eof := by
  simp only [singleByte?]
  repeat' split
  all_goals simp

/-- The end is found only where no bytes are left. -/
theorem cutToken_kind_ne_eof (first : UInt8) (rest : Bytes) :
    (cutToken (first :: rest)).1 ≠ .eof := by
  simp only [cutToken]
  split
  · next kind single =>
    intro eof
    exact singleByte?_ne_eof first (eof ▸ single)
  · split
    · simp
    · split
      · simp
      · unfold cutLiteral
        dsimp only
        split
        · simp
        · exact literalKind_ne_eof _

/-- An `eof` is cut off a string of blanks, all of which are its gap. -/
theorem next_of_kind_eof {input : Bytes} (h : (next input).kind = .eof) :
    (next input).gap = input ∧ (next input).bytes = [] := by
  have taken := List.takeWhile_append_dropWhile (p := Byte.isBlank) (l := input)
  simp only [next] at h ⊢
  cases tail : input.dropWhile Byte.isBlank with
  | nil =>
    rw [tail, List.append_nil] at taken
    exact ⟨taken, rfl⟩
  | cons first rest =>
    rw [tail] at h
    exact absurd h (cutToken_kind_ne_eof first rest)

/-- The bytes skipped in front of a token are blanks. -/
theorem isBlank_of_mem_gap {input : Bytes} {byte : UInt8} (h : byte ∈ (next input).gap) :
    Byte.isBlank byte :=
  List.all_eq_true.mp List.all_takeWhile byte h

end Token

/-- The mark behind a token stands where the token ends. -/
@[simp] theorem Mark.offset_past (mark : Mark) (kind : TokenKind) (stop : Nat) :
    (mark.past kind stop).offset = stop := by
  unfold past
  split <;> rfl

/-- Every scan cuts the bytes behind its mark into lexemes and blanks. -/
theorem scanFrom_tiled (mark : Mark) (input : Bytes) :
    Tiled mark.offset input (scanFrom mark input) := by
  fun_induction scanFrom mark input with
  | case1 mark input cut lexeme eof =>
    obtain ⟨gap, bytes⟩ := Token.next_of_kind_eof eof
    rw [← gap]
    refine Tiled.eof (fun byte mem => Token.isBlank_of_mem_gap mem) eof bytes ?_
    simp [lexeme, Cut.lexeme, cut, bytes, gap]
  | case2 mark input cut lexeme other ih =>
    have offset : (mark.past lexeme.kind lexeme.span.stop).offset =
        mark.offset + cut.gap.length + lexeme.bytes.length := Mark.offset_past _ _ _
    rw [offset] at ih
    have whole : cut.gap ++ lexeme.bytes ++ cut.rest = input := Token.next_append input
    rw [← whole]
    refine Tiled.token (fun byte mem => Token.isBlank_of_mem_gap mem) other
      (Token.next_bytes_ne_nil other) ?_ ?_
    · rfl
    · exact ih

/-- Every scan cuts its source into lexemes and blanks. -/
theorem scan_tiled (source : Bytes) : Tiled 0 source (scan source) :=
  scanFrom_tiled Mark.origin source

namespace Tiled

variable {offset : Nat} {input : Bytes} {lexemes : List Lexeme}

/-- A tiling ends in its only `eof`. -/
theorem ended (h : Tiled offset input lexemes) : Ended lexemes := by
  induction h with
  | eof _ kind _ _ => exact Ended.eof kind
  | token _ kind _ _ _ ih => exact Ended.cons kind ih

/-- Each lexeme but the last one takes a byte. -/
theorem length_le (h : Tiled offset input lexemes) : lexemes.length ≤ input.length + 1 := by
  induction h with
  | eof _ _ _ _ => simp
  | token _ _ bytes _ _ ih =>
    have taken := List.length_pos_iff.mpr bytes
    simp only [List.length_cons, List.length_append]
    omega

/-- The `eof` has no bytes, and every other lexeme has some. -/
theorem bytes_eq_nil_iff (h : Tiled offset input lexemes) :
    ∀ lexeme ∈ lexemes, lexeme.bytes = [] ↔ lexeme.kind = .eof := by
  induction h with
  | eof _ kind bytes _ =>
    intro lexeme mem
    rw [List.mem_singleton.mp mem]
    exact iff_of_true bytes kind
  | token _ kind bytes _ _ ih =>
    intro lexeme mem
    rcases List.mem_cons.mp mem with rfl | behind
    · exact iff_of_false bytes kind
    · exact ih lexeme behind

/-- The last lexeme ends where the bytes end. -/
theorem endFrom_eq (h : Tiled offset input lexemes) :
    endFrom offset lexemes = offset + input.length := by
  induction h with
  | eof _ _ _ span => simp [span]
  | token _ _ _ span _ ih =>
    rw [endFrom_cons, span, ih]
    simp only [List.length_append]
    omega

/-- The lexemes of a tiling begin at its offset or behind it. -/
theorem offset_le_start (h : Tiled offset input lexemes) :
    ∀ lexeme ∈ lexemes, offset ≤ lexeme.span.start := by
  induction h with
  | eof _ _ _ span =>
    intro lexeme mem
    rw [List.mem_singleton.mp mem, span]
    simp
  | token _ _ _ span _ ih =>
    intro lexeme mem
    rcases List.mem_cons.mp mem with rfl | behind
    · rw [span]
      simp
    · have := ih lexeme behind
      omega

/-- The lexemes of a tiling end where they begin or behind that. -/
theorem start_le_stop (h : Tiled offset input lexemes) :
    ∀ lexeme ∈ lexemes, lexeme.span.start ≤ lexeme.span.stop := by
  induction h with
  | eof _ _ _ span =>
    exact List.forall_mem_singleton.mpr (by simp [span])
  | token _ _ _ span _ ih =>
    rw [List.forall_mem_cons, span]
    exact ⟨Nat.le_add_right _ _, ih⟩

/-- The spans of a tiling do not overlap, and all but the last one have bytes. -/
theorem pairwise (h : Tiled offset input lexemes) :
    lexemes.Pairwise fun a b => a.span.start < a.span.stop ∧ a.span.stop ≤ b.span.start := by
  induction h with
  | eof _ _ _ _ => exact List.pairwise_singleton _ _
  | token _ _ bytes span tail ih =>
    refine List.pairwise_cons.mpr ⟨?_, ih⟩
    intro lexeme mem
    have behind := tail.offset_le_start lexeme mem
    have taken := List.length_pos_iff.mpr bytes
    rw [span]
    exact ⟨by simp only; omega, behind⟩

/-- No lexeme stands twice in a tiling. -/
theorem nodup (h : Tiled offset input lexemes) : lexemes.Nodup := by
  apply h.pairwise.imp
  intro a b order same
  rw [same] at order
  omega

/-- Where a lexeme of a tiling lies: behind the lexemes before it and a gap of blanks. -/
theorem split (h : Tiled offset input lexemes) {before after : List Lexeme} {lexeme : Lexeme}
    (place : lexemes = before ++ lexeme :: after) :
    ∃ covered gap rest : Bytes, input = covered ++ gap ++ lexeme.bytes ++ rest ∧
      endFrom offset before = offset + covered.length ∧ (∀ byte ∈ gap, Byte.isBlank byte) ∧
      lexeme.span = ⟨endFrom offset before + gap.length,
        endFrom offset before + gap.length + lexeme.bytes.length⟩ := by
  induction h generalizing before with
  | @eof offset gap last blank _ bytes span =>
    have alone : before = [] ∧ lexeme = last ∧ after = [] := by
      cases before <;> simp_all
    obtain ⟨rfl, rfl, rfl⟩ := alone
    refine ⟨[], gap, [], by simp [bytes], rfl, blank, ?_⟩
    rw [span, bytes]
    rfl
  | @token offset gap rest first others blank _ _ span tail ih =>
    cases before with
    | nil =>
      rw [List.nil_append, List.cons.injEq] at place
      obtain ⟨rfl, rfl⟩ := place
      exact ⟨[], gap, rest, rfl, rfl, blank, span⟩
    | cons second before =>
      rw [List.cons_append, List.cons.injEq] at place
      obtain ⟨rfl, others⟩ := place
      obtain ⟨covered, between, beyond, bytes, ends, blanks, found⟩ := ih others
      have stop : first.span.stop = offset + gap.length + first.bytes.length := by rw [span]
      refine ⟨gap ++ first.bytes ++ covered, between, beyond, ?_, ?_, blanks, ?_⟩
      · rw [bytes]
        simp only [List.append_assoc]
      · rw [endFrom_cons, stop, ends]
        simp only [List.length_append]
        omega
      · rw [endFrom_cons, stop]
        exact found

/-- Gaps and lexemes of a tiling, in order, are the bytes it was made from. -/
theorem pieces_eq (h : Tiled offset input lexemes) (front : Bytes)
    (length : front.length = offset) :
    pieces (front ++ input) offset lexemes = input := by
  induction h generalizing front with
  | @eof offset gap lexeme _ _ bytes span =>
    subst length
    simp [pieces, span, Span.slice]
  | @token offset gap rest lexeme lexemes _ _ _ span _ ih =>
    subst length
    have cutGap := Span.slice_middle front gap (lexeme.bytes ++ rest)
    have cutBytes := Span.slice_middle (front ++ gap) lexeme.bytes rest
    have tail := ih (front ++ gap ++ lexeme.bytes) (by simp [Nat.add_assoc])
    simp only [List.length_append, List.append_assoc] at cutGap cutBytes tail
    simp only [pieces, span, List.append_assoc, cutGap, cutBytes, tail]

end Tiled

/-! ## The whole source -/

/-- A list that ends in its only `eof` is that `eof` behind lexemes of other kinds. -/
theorem Ended.exists_append {lexemes : List Lexeme} (h : Ended lexemes) :
    ∃ body eof, lexemes = body ++ [eof] ∧ eof.kind = .eof ∧
      ∀ lexeme ∈ body, lexeme.kind ≠ .eof := by
  induction h with
  | @eof lexeme kind => exact ⟨[], lexeme, rfl, kind, by simp⟩
  | @cons lexeme rest kind _ ih =>
    obtain ⟨body, eof, rfl, last, others⟩ := ih
    refine ⟨lexeme :: body, eof, rfl, last, ?_⟩
    intro found mem
    rcases List.mem_cons.mp mem with rfl | mem
    · exact kind
    · exact others found mem

/-- Where a lexeme of a scan lies in the source, and which bytes it has. -/
theorem scan_split {source : Bytes} {before after : List Lexeme} {lexeme : Lexeme}
    (place : scan source = before ++ lexeme :: after) :
    endFrom 0 before ≤ lexeme.span.start ∧
      lexeme.span.stop = lexeme.span.start + lexeme.bytes.length ∧
      lexeme.span.stop ≤ source.length ∧
      (∀ byte ∈ Span.slice ⟨endFrom 0 before, lexeme.span.start⟩ source,
        byte = Byte.space ∨ byte = Byte.tab) ∧
      lexeme.bytes = lexeme.span.slice source := by
  obtain ⟨covered, gap, rest, whole, ends, blank, span⟩ := (scan_tiled source).split place
  rw [Nat.zero_add] at ends
  have cutGap := Span.slice_middle covered gap (lexeme.bytes ++ rest)
  have cutBytes := Span.slice_middle (covered ++ gap) lexeme.bytes rest
  simp only [List.length_append, List.append_assoc] at cutGap cutBytes
  rw [span, ends, whole]
  simp only [List.append_assoc, cutGap, cutBytes, List.length_append]
  refine ⟨by omega, trivial, by omega, ?_, trivial⟩
  intro byte mem
  simpa [Byte.isBlank] using blank byte mem

/-- The span of a lexeme of a scan has as many offsets as the lexeme has bytes. -/
theorem scan_stop_eq {source : Bytes} {lexeme : Lexeme} (mem : lexeme ∈ scan source) :
    lexeme.span.stop = lexeme.span.start + lexeme.bytes.length := by
  obtain ⟨before, after, place⟩ := List.append_of_mem mem
  exact (scan_split place).2.1

/-- The span of a lexeme other than `eof` is not empty. -/
theorem scan_start_lt_stop {source : Bytes} {lexeme : Lexeme} (mem : lexeme ∈ scan source)
    (kind : lexeme.kind ≠ .eof) : lexeme.span.start < lexeme.span.stop := by
  have empty := (scan_tiled source).bytes_eq_nil_iff lexeme mem
  have taken := List.length_pos_iff.mpr (mt empty.mp kind)
  have stop := scan_stop_eq mem
  omega

/-- The `eof` of a scan is empty and stands behind the last byte. -/
theorem scan_eof_span {source : Bytes} {body : List Lexeme} {eof : Lexeme}
    (whole : scan source = body ++ [eof]) (kind : eof.kind = .eof) :
    eof.span = ⟨source.length, source.length⟩ := by
  have mem : eof ∈ scan source := by simp [whole]
  have bytes := ((scan_tiled source).bytes_eq_nil_iff eof mem).mpr kind
  have stop := scan_stop_eq mem
  have last := (scan_tiled source).endFrom_eq
  simp only [whole, endFrom, List.getLast?_concat, Option.map_some, Option.getD_some] at last
  rw [bytes, List.length_nil, Nat.add_zero] at stop
  rw [Nat.zero_add] at last
  cases span : eof.span with
  | mk start stop' =>
    simp only [span] at stop last
    rw [← stop, last]

/-- **A scan covers its source exactly.**  It has at most one lexeme more than the source has
bytes; it ends in its only `eof`, which is empty and stands behind the last byte; every other
lexeme has bytes; each lexeme begins where the one before it ended or behind that, with blanks
between the two, and lies within the source, of which it holds the bytes; and gaps and lexemes, in
order, are the source. -/
theorem scan_covers (source : Bytes) :
    (scan source).length ≤ source.length + 1 ∧
    (∃ body eof, scan source = body ++ [eof] ∧ eof.kind = .eof ∧
      eof.span = ⟨source.length, source.length⟩ ∧
      ∀ lexeme ∈ body, lexeme.kind ≠ .eof ∧ lexeme.span.start < lexeme.span.stop) ∧
    (∀ before lexeme after, scan source = before ++ lexeme :: after →
      endFrom 0 before ≤ lexeme.span.start ∧ lexeme.span.start ≤ lexeme.span.stop ∧
      lexeme.span.stop ≤ source.length ∧
      (∀ byte ∈ Span.slice ⟨endFrom 0 before, lexeme.span.start⟩ source,
        byte = Byte.space ∨ byte = Byte.tab) ∧
      lexeme.bytes = lexeme.span.slice source) ∧
    pieces source 0 (scan source) = source := by
  have tiled := scan_tiled source
  refine ⟨tiled.length_le, ?_, ?_, ?_⟩
  · obtain ⟨body, eof, whole, last, others⟩ := tiled.ended.exists_append
    refine ⟨body, eof, whole, last, scan_eof_span whole last, ?_⟩
    intro lexeme mem
    have kind := others lexeme mem
    have member : lexeme ∈ scan source := by simp [whole, mem]
    exact ⟨kind, scan_start_lt_stop member kind⟩
  · intro before lexeme after place
    obtain ⟨start, stop, inside, blanks, bytes⟩ := scan_split place
    exact ⟨start, by omega, inside, blanks, bytes⟩
  · exact tiled.pieces_eq [] rfl

/-! ## Sources that tokenize -/

section

variable {source : Bytes} {lexemes : List Lexeme} {lexeme : Lexeme}

/-- The lexemes of a source that tokenizes are those of its scan. -/
theorem scan_of_tokenize (h : tokenize source = .ok lexemes) : lexemes = scan source := by
  unfold tokenize at h
  dsimp only at h
  split at h
  · cases h
  · cases h
    rfl

/-- A source tokenizes if no token of its scan is invalid. -/
theorem tokenize_eq_scan (valid : ∀ lexeme ∈ scan source, lexeme.kind ≠ .invalid) :
    tokenize source = .ok (scan source) := by
  have none : (scan source).find? (·.kind == .invalid) = none := by
    rw [List.find?_eq_none]
    intro lexeme mem
    simpa using valid lexeme mem
  simp only [tokenize, none]

/-- The lexemes of a source that tokenizes end in `eof`. -/
theorem ended_of_tokenize (h : tokenize source = .ok lexemes) : Ended lexemes :=
  scan_of_tokenize h ▸ (scan_tiled source).ended

/-- A source does not tokenize exactly for its first invalid lexeme. -/
theorem tokenize_eq_error_iff {failure : LinkFailure} : tokenize source = .error failure ↔
    ∃ before lexeme after, scan source = before ++ lexeme :: after ∧ lexeme.kind = .invalid ∧
      (∀ earlier ∈ before, earlier.kind ≠ .invalid) ∧ failure = lexeme.invalidToken := by
  unfold tokenize
  dsimp only
  constructor
  · intro h
    split at h
    · next lexeme found =>
      cases h
      obtain ⟨invalid, before, after, place, valid⟩ := List.find?_eq_some_iff_append.mp found
      refine ⟨before, lexeme, after, place, by simpa using invalid, ?_, rfl⟩
      intro earlier mem
      simpa using valid earlier mem
    · cases h
  · rintro ⟨before, lexeme, after, place, invalid, valid, rfl⟩
    have found : (scan source).find? (·.kind == .invalid) = some lexeme := by
      refine List.find?_eq_some_iff_append.mpr ⟨by simpa using invalid, before, after, place, ?_⟩
      intro earlier mem
      simpa using valid earlier mem
    rw [found]

/-- No lexeme of a source that tokenizes is invalid. -/
theorem kind_ne_invalid_of_tokenize (tokens : tokenize source = .ok lexemes)
    (mem : lexeme ∈ lexemes) : lexeme.kind ≠ .invalid := by
  unfold tokenize at tokens
  dsimp only at tokens
  split at tokens
  · cases tokens
  · next none =>
    cases tokens
    simpa using List.find?_eq_none.mp none lexeme mem

end

end LinkScript
