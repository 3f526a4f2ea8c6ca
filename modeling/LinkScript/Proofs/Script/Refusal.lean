import LinkScript.Proofs.Script.Blame
import LinkScript.Proofs.Token.Invalid
import LinkScript.Proofs.Token.Position

/-!
# Why a source is refused

A source is read, or it is refused for one of three defects, and some lexeme of its scan shows the
defect and gives it its place.

* `Lexeme.Shows` says which defects a lexeme can show.
* A source that does not tokenize is refused for its first invalid lexeme (`tokenize_eq_error_iff`),
  so this one has precedence over whatever else is wrong.
* `parse_cases`: a source that tokenizes is read, or some lexeme shows what is wrong.
  `parse_outcome` says so of every source; in particular no lexeme is asked for that does not exist.
* `parse_refusal` adds to this which sources do not tokenize, told by their bytes.
-/

namespace LinkScript

open Grammar

/-- The defects that a lexeme can show: as an invalid token, as a valid one in the wrong place, or
as a format of no supported architecture. -/
inductive Lexeme.Shows : Lexeme → Defect → Prop where
  | invalid {lexeme : Lexeme} : lexeme.kind = .invalid →
      Shows lexeme (.invalidToken lexeme.bytes)
  | unexpected {lexeme : Lexeme} : lexeme.kind ≠ .invalid →
      Shows lexeme (.unexpectedToken lexeme.type lexeme.text)
  | unsupported {lexeme : Lexeme} : lexeme.kind = .literal → ¬ lexeme.Supported →
      Shows lexeme (.unknownCpuArch lexeme.text)

/-! ## Sources that tokenize -/

section

variable {source : Bytes} {lexemes : List Lexeme} {lexeme operand : Lexeme}

/-- A format that a closing bracket stands behind is a literal ahead. -/
theorem mem_of_closedOperand? (h : closedOperand? lexemes = some operand) :
    operand ∈ lexemes ∧ operand.kind = .literal := by
  unfold closedOperand? at h
  split at h
  · cases h
  · next found behind rest =>
    split at h
    · cases h
      have first := List.head?_dropWhile_not (fun lexeme : Lexeme => lexeme.kind ≠ .literal) lexemes
      rw [rest] at first
      exact ⟨(List.dropWhile_suffix _).subset (rest ▸ List.mem_cons_self), by simpa using first⟩
    · cases h

/-- A format that is closed is a literal of the script. -/
theorem mem_of_mem_closedOperands (h : operand ∈ closedOperands lexemes) :
    operand ∈ lexemes ∧ operand.kind = .literal := by
  induction lexemes with
  | nil => cases h
  | cons lexeme rest ih =>
    have found : operand ∈ rest ∧ operand.kind = .literal := by
      rw [closedOperands] at h
      split at h
      · rcases List.mem_append.mp h with here | behind
        · exact mem_of_closedOperand? (Option.mem_toList.mp here)
        · exact ih behind
      · exact ih h
    exact ⟨List.mem_cons_of_mem _ found.1, found.2⟩

/-- The lexeme to blame is the one that cannot be mended or one before it. -/
theorem culprit_mem (front : List Lexeme) (lexeme : Lexeme) :
    culprit front lexeme ∈ front ++ [lexeme] := by
  unfold culprit
  split
  · next newline keyword earlier reversed =>
    split
    · have mem : newline ∈ front.reverse := by simp [reversed]
      exact List.mem_append_left _ (List.mem_reverse.mp mem)
    · simp
  · simp

/-- An unsupported format that is closed shows why it is refused. -/
theorem shows_of_firstUnsupported
    (first : firstUnsupported (closedOperands lexemes) = some operand) :
    operand ∈ lexemes ∧ operand.Shows (.unknownCpuArch operand.text) := by
  have unsupported : ¬ operand.Supported := by simpa using List.find?_some first
  obtain ⟨mem, kind⟩ := mem_of_mem_closedOperands (List.mem_of_find?_eq_some first)
  exact ⟨mem, Lexeme.Shows.unsupported kind unsupported⟩

/-- **A source that tokenizes is read, or some lexeme shows what is wrong.**  The walk over its
lexemes goes through or is stuck at one of them; the formats closed until then come first. -/
theorem parse_cases (tokens : tokenize source = .ok lexemes) :
    (∃ contents, parse source = .ok contents) ∨
      ∃ lexeme ∈ lexemes, ∃ defect, lexeme.Shows defect ∧
        parse source = .error (.link ⟨defect, lexeme.position⟩) := by
  rcases Phase.top.walk_cases lexemes with ⟨finish, walk⟩ | ⟨front, stuck, back, middle, place, walk,
    stop⟩
  · cases first : firstUnsupported (closedOperands lexemes) with
    | some operand =>
      obtain ⟨mem, shows⟩ := shows_of_firstUnsupported first
      have whole := (List.append_nil lexemes).symm
      exact Or.inr ⟨operand, mem, _, shows, parse_of_unsupported tokens whole walk first⟩
    | none =>
      obtain ⟨contents, run⟩ := (Reading.run_of_walk {} walk).2 first
      exact Or.inl ⟨contents, (parse_eq_ok_iff tokens).mpr ⟨_, run, rfl⟩⟩
  · right
    cases first : firstUnsupported (closedOperands front) with
    | some operand =>
      obtain ⟨mem, shows⟩ := shows_of_firstUnsupported first
      have inside : operand ∈ lexemes := place ▸ List.mem_append_left _ mem
      exact ⟨operand, inside, _, shows, parse_of_unsupported tokens place walk first⟩
    | none =>
      have mem : culprit front stuck ∈ lexemes := by
        rw [place, List.append_cons]
        exact List.mem_append_left back (culprit_mem front stuck)
      have shows := Lexeme.Shows.unexpected (kind_ne_invalid_of_tokenize tokens mem)
      exact ⟨culprit front stuck, mem, _, shows, parse_of_stuck tokens place walk stop first⟩

/-- **Every source is read, or some lexeme of its scan shows what is wrong.** -/
theorem parse_outcome (source : Bytes) :
    (∃ contents, parse source = .ok contents) ∨
      ∃ lexeme ∈ scan source, ∃ defect, lexeme.Shows defect ∧
        parse source = .error (.link ⟨defect, lexeme.position⟩) := by
  cases tokens : tokenize source with
  | ok lexemes => exact scan_of_tokenize tokens ▸ parse_cases tokens
  | error failure =>
    obtain ⟨before, lexeme, after, place, invalid, -, rfl⟩ := tokenize_eq_error_iff.mp tokens
    refine Or.inr ⟨lexeme, by simp [place], _, Lexeme.Shows.invalid invalid, ?_⟩
    simp [parse, tokens, Lexeme.invalidToken]

/-- A source is refused for a defect at a place, and never for a lexeme that does not exist. -/
theorem exists_failure_of_parse {fault : ParseFault} (refused : parse source = .error fault) :
    ∃ failure, fault = .link failure := by
  rcases parse_outcome source with ⟨contents, same⟩ | ⟨_, _, _, _, same⟩
  · rw [refused] at same
    cases same
  · rw [refused] at same
    cases same
    exact ⟨_, rfl⟩

/-- A source does not tokenize exactly if a lexeme of its scan is invalid. -/
theorem exists_tokenize_error_iff :
    (∃ failure, tokenize source = .error failure) ↔
      ∃ lexeme ∈ scan source, lexeme.kind = .invalid := by
  constructor
  · rintro ⟨failure, refused⟩
    obtain ⟨before, lexeme, after, place, invalid, -⟩ := tokenize_eq_error_iff.mp refused
    exact ⟨lexeme, by simp [place], invalid⟩
  · rintro ⟨lexeme, mem, invalid⟩
    cases tokens : tokenize source with
    | error failure => exact ⟨failure, rfl⟩
    | ok lexemes =>
      rw [← scan_of_tokenize tokens] at mem
      exact absurd invalid (kind_ne_invalid_of_tokenize tokens mem)

/-- A source is refused for an invalid token exactly if it does not tokenize. -/
theorem parse_eq_invalid_iff {bytes : Bytes} {position : Position} :
    parse source = .error (.link ⟨.invalidToken bytes, position⟩) ↔
      tokenize source = .error ⟨.invalidToken bytes, position⟩ := by
  cases tokens : tokenize source with
  | error failure => simp [parse, tokens]
  | ok lexemes =>
    refine iff_of_false ?_ (by simp)
    intro refused
    rcases parse_cases tokens with ⟨contents, accepted⟩ | ⟨lexeme, mem, shown, shows, same⟩
    · rw [accepted] at refused
      cases refused
    · rw [refused] at same
      cases same
      cases shows with
      | invalid invalid => exact kind_ne_invalid_of_tokenize tokens mem invalid

/-- A source with an invalid token is refused for the first one of these. -/
theorem parse_of_invalid (invalid : ∃ lexeme ∈ scan source, lexeme.kind = .invalid) :
    ∃ before lexeme after, scan source = before ++ lexeme :: after ∧ lexeme.kind = .invalid ∧
      (∀ earlier ∈ before, earlier.kind ≠ .invalid) ∧
      parse source = .error (.link ⟨.invalidToken lexeme.bytes, lexeme.position⟩) := by
  obtain ⟨failure, tokens⟩ := exists_tokenize_error_iff.mpr invalid
  obtain ⟨before, lexeme, after, place, kind, first, rfl⟩ := tokenize_eq_error_iff.mp tokens
  exact ⟨before, lexeme, after, place, kind, first, parse_eq_invalid_iff.mpr tokens⟩

end

/-- **Why a source is refused.**  A source is read, or some lexeme of its scan shows a defect and
the source is refused for it at the place of the lexeme; no lexeme is asked for that does not exist.

A source is refused for an invalid token exactly if it holds a carriage return that stands alone
outside comments, whatever else is wrong with it.  It is then refused for the first invalid token of
the scan, which ends with its only carriage return, at the line and column of that token. -/
theorem parse_refusal (source : Bytes) :
    ((∃ contents, parse source = .ok contents) ∨
      ∃ lexeme ∈ scan source, ∃ defect, lexeme.Shows defect ∧
        parse source = .error (.link ⟨defect, lexeme.position⟩)) ∧
    (∀ fault, parse source ≠ .error (.outOfBounds fault)) ∧
    ((∃ bytes position, parse source = .error (.link ⟨.invalidToken bytes, position⟩)) ↔
      ∃ index, LoneReturn source index) ∧
    (∀ bytes position, parse source = .error (.link ⟨.invalidToken bytes, position⟩) →
      ∃ before lexeme after, scan source = before ++ lexeme :: after ∧ lexeme.kind = .invalid ∧
        (∀ earlier ∈ before, earlier.kind ≠ .invalid) ∧
        bytes = lexeme.span.slice source ∧
        bytes.count Byte.carriageReturn = 1 ∧ bytes.getLast? = some Byte.carriageReturn ∧
        position = ⟨before.countP (·.kind = .newline),
          lexeme.span.start - (endFrom 0 (before.filter (·.kind = .newline)) : Int)⟩) := by
  refine ⟨parse_outcome source, ?_, ?_, ?_⟩
  · intro fault refused
    obtain ⟨failure, same⟩ := exists_failure_of_parse refused
    cases same
  · simp only [parse_eq_invalid_iff, ← exists_invalid_iff, ← exists_tokenize_error_iff]
    constructor
    · rintro ⟨bytes, position, refused⟩
      exact ⟨_, refused⟩
    · rintro ⟨failure, refused⟩
      obtain ⟨_, lexeme, _, _, _, _, rfl⟩ := tokenize_eq_error_iff.mp refused
      exact ⟨lexeme.bytes, lexeme.position, refused⟩
  · intro bytes position refused
    obtain ⟨before, lexeme, after, place, invalid, first, same⟩ :=
      tokenize_eq_error_iff.mp (parse_eq_invalid_iff.mp refused)
    cases same
    have mem : lexeme ∈ scan source := by simp [place]
    have shape := scan_shape mem
    have same := (scan_split place).2.2.2.2
    rw [invalid, ← same] at shape
    obtain ⟨count, last⟩ := count_return_of_invalid shape
    exact ⟨before, lexeme, after, place, invalid, first, same, count, last, scan_position place⟩

end LinkScript
