import LinkScript.Cursor
import LinkScript.Failure

/-!
# Moving through the lexemes of a script

The moves of a recursive descent parser over a cursor.  Each takes a whole step or none: where
the lexemes do not have the wanted types the cursor comes back where it was, even if the attempt
ran past the last lexeme.

* `skip` takes a sequence of types, `skipAny` every lexeme of some types;
* `maybe` and `maybeCommand` take one lexeme if it fits;
* `require` takes one lexeme or blames the one that stands there.
-/

namespace LinkScript

/-- Why a run of the parser ends without a result. -/
inductive ParseFault where
  /-- The script is malformed. -/
  | link (failure : LinkFailure)
  /-- A lexeme was asked for that does not exist. -/
  | outOfBounds (fault : OutOfBounds)
  deriving Repr, DecidableEq

/-- A place among the lexemes of a script. -/
abbrev Place := Cursor Lexeme

namespace Place

/-- The failure that blames the lexeme at an index. -/
def unexpected (place : Place) (index : Nat) : ParseFault :=
  match place.get index with
  | .ok lexeme => .link ⟨.unexpectedToken lexeme.type lexeme.text, lexeme.position⟩
  | .error fault => .outOfBounds fault

/-- The place behind lexemes of exactly these types. -/
def behind? (place : Place) : List TokenType → Option Place
  | [] => some place
  | type :: types =>
    match place.next with
    | (some lexeme, after) => if lexeme.type = type then behind? after types else none
    | (none, _) => none

/-- Takes a sequence of types, or nothing at all. -/
def skip (place : Place) (types : List TokenType) : Bool × Place :=
  let mark := place.save
  match place.behind? types with
  | some after => (true, after)
  | none => (false, place.restore mark)

/-- Takes lexemes for as long as they have one of the given types. -/
def skipAny (place : Place) (types : List TokenType) : Place :=
  match _h : place.next with
  | (some lexeme, after) =>
    if lexeme.type ∈ types then skipAny after types else after.rewindBy 1
  | (none, after) => after
termination_by place.remaining
decreasing_by exact Cursor.remaining_next_lt _h

/-- Takes one lexeme if it has the given type. -/
def maybe (place : Place) (type : TokenType) : Option Lexeme × Place :=
  let mark := place.save
  match place.next with
  | (some lexeme, after) =>
    if lexeme.type = type then (some lexeme, after) else (none, after.restore mark)
  | (none, after) => (none, after.restore mark)

/-- Takes one lexeme if it is a keyword. -/
def maybeCommand (place : Place) : Option Command × Place :=
  let mark := place.save
  match place.next with
  | (some lexeme, after) =>
    match lexeme.kind.command? with
    | some keyword => (some keyword, after)
    | none => (none, after.restore mark)
  | (none, after) => (none, after.restore mark)

/-- Takes one lexeme of the given type, and blames the lexeme that stands there if it has another
type. -/
def require (place : Place) (type : TokenType) : Except ParseFault (Lexeme × Place) :=
  match place.maybe type with
  | (some lexeme, after) => .ok (lexeme, after)
  | (none, after) => .error (after.unexpected after.pos)

/-! ## What the moves leave

Whatever a move takes, there are never more lexemes ahead after it, and a lexeme taken leaves
fewer. -/

/-- No more lexemes remain behind a token that is passed over. -/
theorem behind?_remaining_le {place after : Place} {types : List TokenType}
    (h : place.behind? types = some after) : after.remaining ≤ place.remaining := by
  induction types generalizing place with
  | nil => simp only [behind?, Option.some.injEq] at h; exact h ▸ Nat.le_refl _
  | cons type types ih =>
    simp only [behind?] at h
    split at h
    · next lexeme next heq =>
      split at h
      · exact Nat.le_trans (ih h) (Nat.le_of_lt (Cursor.remaining_next_lt heq))
      · cases h
    · cases h

/-- No more lexemes remain where one token may have been passed over. -/
theorem skip_remaining_le (place : Place) (types : List TokenType) :
    (place.skip types).2.remaining ≤ place.remaining := by
  unfold skip
  dsimp only
  split
  · next after h => exact behind?_remaining_le h
  · exact Nat.le_refl _

/-- No more lexemes remain where any number of tokens have been passed over. -/
theorem skipAny_remaining_le (place : Place) (types : List TokenType) :
    (place.skipAny types).remaining ≤ place.remaining := by
  fun_induction skipAny place types with
  | case1 place lexeme after h _ ih =>
    exact Nat.le_trans ih (Nat.le_of_lt (Cursor.remaining_next_lt h))
  | case2 place lexeme after h _ =>
    exact Nat.le_of_eq (congrArg Cursor.remaining (Cursor.rewindBy_one_of_next h))
  | case3 place after h => exact Cursor.next_eq_none h ▸ Nat.le_refl _

/-- Where a token is not there, the place stays. -/
theorem maybe_eq_none {place after : Place} {type : TokenType}
    (h : place.maybe type = (none, after)) : after = place := by
  unfold maybe at h
  dsimp only at h
  split at h
  · next found next heq =>
    split at h
    · simp at h
    · simp only [Prod.mk.injEq, true_and] at h
      rw [← h, (Cursor.next_eq_some heq).2]
      rfl
  · next heq =>
    simp only [Prod.mk.injEq, true_and] at h
    rw [← h, Cursor.next_eq_none heq]
    rfl

/-- Where a token is there, fewer lexemes remain behind it. -/
theorem maybe_remaining_lt {place after : Place} {type : TokenType} {lexeme : Lexeme}
    (h : place.maybe type = (some lexeme, after)) : after.remaining < place.remaining := by
  unfold maybe at h
  dsimp only at h
  split at h
  · next found next heq =>
    split at h
    · simp only [Prod.mk.injEq, Option.some.injEq] at h
      exact h.2 ▸ Cursor.remaining_next_lt heq
    · simp at h
  · simp at h

/-- Where a keyword is not there, the place stays. -/
theorem maybeCommand_eq_none {place after : Place}
    (h : place.maybeCommand = (none, after)) : after = place := by
  unfold maybeCommand at h
  dsimp only at h
  split at h
  · next found next heq =>
    split at h
    · simp at h
    · simp only [Prod.mk.injEq, true_and] at h
      rw [← h, (Cursor.next_eq_some heq).2]
      rfl
  · next heq =>
    simp only [Prod.mk.injEq, true_and] at h
    rw [← h, Cursor.next_eq_none heq]
    rfl

/-- Where a keyword is there, fewer lexemes remain behind it. -/
theorem maybeCommand_remaining_lt {place after : Place} {keyword : Command}
    (h : place.maybeCommand = (some keyword, after)) : after.remaining < place.remaining := by
  unfold maybeCommand at h
  dsimp only at h
  split at h
  · next found next heq =>
    split at h
    · simp only [Prod.mk.injEq, Option.some.injEq] at h
      exact h.2 ▸ Cursor.remaining_next_lt heq
    · simp at h
  · simp at h

/-- Behind a token that was required fewer lexemes remain. -/
theorem require_remaining_lt {place after : Place} {type : TokenType} {lexeme : Lexeme}
    (h : place.require type = .ok (lexeme, after)) : after.remaining < place.remaining := by
  unfold require at h
  split at h
  · next heq =>
    simp only [Except.ok.injEq, Prod.mk.injEq] at h
    exact h.2 ▸ maybe_remaining_lt heq
  · cases h

end Place

end LinkScript
