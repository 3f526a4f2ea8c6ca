import LinkScript.Proofs.Token.Coverage

/-!
# Where a lexeme stands

A scan keeps a mark with the offset it has come to, its line, and the offset at which that line
begins.  Here the mark is read off the lexemes that have been found.

* `Mark.behind` is the mark behind some lexemes: a line for each newline among them, and a line
  start behind the last of these (`Mark.line_behind`, `Mark.lineStart_behind`).
* `scanFrom_split`: what a scan finds behind some of its lexemes is a scan from the mark behind
  them.
* `scan_position` is the line and column of a lexeme, said without marks.
-/

namespace LinkScript

/-! ## Marks -/

namespace Mark

/-- The mark behind some lexemes. -/
def behind (mark : Mark) (lexemes : List Lexeme) : Mark :=
  lexemes.foldl (fun mark lexeme => mark.past lexeme.kind lexeme.span.stop) mark

variable (mark : Mark) (lexeme : Lexeme) (lexemes : List Lexeme)

/-- Behind no lexemes there is the mark itself. -/
@[simp] theorem behind_nil : mark.behind [] = mark := rfl

/-- Behind several lexemes there is the mark that is behind the others, from behind the first. -/
@[simp] theorem behind_cons :
    mark.behind (lexeme :: lexemes) =
      (mark.past lexeme.kind lexeme.span.stop).behind lexemes := rfl

/-- Each newline begins a line. -/
theorem line_behind :
    (mark.behind lexemes).line = mark.line + lexemes.countP (·.kind = .newline) := by
  induction lexemes generalizing mark with
  | nil => rfl
  | cons first rest ih =>
    rw [behind_cons, ih, List.countP_cons]
    unfold past
    by_cases newline : first.kind = .newline
    · simp [newline]
      omega
    · simp [newline]

/-- The line begins behind the last newline. -/
theorem lineStart_behind :
    (mark.behind lexemes).lineStart =
      endFrom mark.lineStart (lexemes.filter (·.kind = .newline)) := by
  induction lexemes generalizing mark with
  | nil => rfl
  | cons first rest ih =>
    rw [behind_cons, ih]
    unfold past
    by_cases newline : first.kind = .newline
    · simp [newline]
    · simp [newline]

end Mark

/-! ## Scans from the middle -/

/-- What a scan finds behind some of its lexemes is a scan from the mark behind them. -/
theorem scanFrom_split {mark : Mark} {input : Bytes} {front back : List Lexeme}
    (place : scanFrom mark input = front ++ back) (ne_nil : back ≠ []) :
    ∃ rest, back = scanFrom (mark.behind front) rest := by
  induction front generalizing mark input with
  | nil => exact ⟨input, place.symm⟩
  | cons first front ih =>
    rw [scanFrom] at place
    split at place
    · obtain ⟨-, nothing⟩ := List.cons.inj place
      exact absurd (List.append_eq_nil_iff.mp nothing.symm).2 ne_nil
    · obtain ⟨rfl, tail⟩ := List.cons.inj place
      exact ih tail

/-- A scan begins with the lexeme that is cut off at its mark. -/
theorem head?_scanFrom (mark : Mark) (input : Bytes) :
    (scanFrom mark input).head? = some ((Token.next input).lexeme mark) := by
  rw [scanFrom]
  split <;> rfl

/-- **The line and column of a lexeme.**  Its line is the number of newlines before it, and its
column the number of bytes between the last of these, or the beginning, and the lexeme. -/
theorem scan_position {source : Bytes} {before after : List Lexeme} {lexeme : Lexeme}
    (place : scan source = before ++ lexeme :: after) :
    lexeme.position = ⟨before.countP (·.kind = .newline),
      lexeme.span.start - (endFrom 0 (before.filter (·.kind = .newline)) : Int)⟩ := by
  obtain ⟨rest, tail⟩ := scanFrom_split place (by simp)
  have head := head?_scanFrom (Mark.origin.behind before) rest
  rw [← tail, List.head?_cons, Option.some.injEq] at head
  rw [head]
  simp [Cut.lexeme, Mark.position, Mark.line_behind, Mark.lineStart_behind, Mark.origin]

end LinkScript
