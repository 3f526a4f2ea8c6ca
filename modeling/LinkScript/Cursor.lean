import LinkScript.Decimal.Double

/-!
# A movable place in a list of tokens

A `Cursor` is an array that never changes together with a position in it.  It moves forward one
item at a time, can be sent back to a position noted before, and can be wound back by a number
of steps, which stops at the first item.  Nothing keeps a position from lying past the end: there
is then no item under the cursor, and the position is only kept in double precision.
-/

namespace LinkScript

/-- A position among the items of an array. -/
structure Cursor (α : Type) where
  items : Array α
  pos : Nat := 0
  deriving Repr, DecidableEq

/-- An index that names no item, and the number of items there are. -/
structure OutOfBounds where
  index : Int
  size : Nat
  deriving Repr, DecidableEq

namespace OutOfBounds

/-- The index as it is shown: in double precision, or by a word if it is too great for that. -/
def indexText (fault : OutOfBounds) : String :=
  match (Decimal.ofInt fault.index).toDouble with
  | some index => index.text
  | none => if fault.index < 0 then "-Infinity" else "Infinity"

/-- The complaint about a missing item, in words. -/
def message (fault : OutOfBounds) : String :=
  "Token index " ++ fault.indexText ++ " out of bounds (" ++ toString fault.size ++ " tokens)"

end OutOfBounds

namespace Cursor

variable {α : Type}

/-- The item under the cursor. -/
def peek (cursor : Cursor α) : Option α := cursor.items[cursor.pos]?

/-- The item under the cursor, and the cursor behind it; past the end the cursor stays. -/
def next (cursor : Cursor α) : Option α × Cursor α :=
  match cursor.peek with
  | some item => (some item, { cursor with pos := cursor.pos + 1 })
  | none => (none, cursor)

/-- The item at an index, wherever the cursor is. -/
def get (cursor : Cursor α) (index : Int) : Except OutOfBounds α :=
  if index < 0 then .error ⟨index, cursor.items.size⟩
  else
    match cursor.items[index.toNat]? with
    | some item => .ok item
    | none => .error ⟨index, cursor.items.size⟩

/-- The position, to come back to. -/
def save (cursor : Cursor α) : Nat := cursor.pos

/-- The cursor at a position noted before. -/
def restore (cursor : Cursor α) (mark : Nat) : Cursor α := { cursor with pos := mark }

/-- The cursor a number of items further back, or at the first one.  A negative number moves it
forward. -/
def rewindBy (cursor : Cursor α) (count : Int) : Cursor α :=
  let target := (cursor.pos - count).toNat
  { cursor with
    pos := if target ≤ cursor.items.size then target else Decimal.nearestWhole target }

/-- How many items lie at or behind the cursor. -/
def remaining (cursor : Cursor α) : Nat := cursor.items.size - cursor.pos

/-! ## Winding back

Up to the end of the items a position is exact. -/

/-- A step back as far as the items reach comes to the place that it names, and never before the
first. -/
theorem rewindBy_pos {cursor : Cursor α} {count : Int}
    (h : cursor.pos - count ≤ cursor.items.size) :
    (cursor.rewindBy count).pos = (cursor.pos - count).toNat := by
  unfold rewindBy
  dsimp only
  split
  · rfl
  · omega

/-! ## Taking an item leaves fewer -/

/-- Where nothing is read, the cursor stays. -/
theorem next_eq_none {cursor after : Cursor α} (h : cursor.next = (none, after)) :
    after = cursor := by
  unfold next at h
  split at h <;> simp_all

/-- What is read is what was seen, and the cursor is one item further. -/
theorem next_eq_some {cursor after : Cursor α} {item : α} (h : cursor.next = (some item, after)) :
    cursor.peek = some item ∧ after = { cursor with pos := cursor.pos + 1 } := by
  unfold next at h
  split at h <;> simp_all

/-- Winding back by one undoes the taking of an item. -/
theorem rewindBy_one_of_next {cursor after : Cursor α} {item : α}
    (h : cursor.next = (some item, after)) : after.rewindBy 1 = cursor := by
  obtain ⟨under, rfl⟩ := next_eq_some h
  have inside := (Array.getElem?_eq_some_iff.mp under).1
  cases cursor with
  | mk items pos =>
    have inside : pos < items.size := inside
    have target : (((pos + 1 : Nat) : Int) - 1).toNat = pos := by omega
    simp only [rewindBy, target, if_pos (Nat.le_of_lt inside)]

/-- What is read no longer remains. -/
theorem remaining_next_lt {cursor after : Cursor α} {item : α}
    (h : cursor.next = (some item, after)) : after.remaining < cursor.remaining := by
  obtain ⟨under, rfl⟩ := next_eq_some h
  have := (Array.getElem?_eq_some_iff.mp under).1
  simp only [remaining]
  omega

/-! ## A sequence of moves -/

/-- What can be asked of a cursor. -/
inductive Move where
  | next
  | peek
  | get (index : Int)
  | save
  | restore (mark : Nat)
  | rewindBy (count : Int)
  deriving Repr, DecidableEq

/-- What a cursor answers. -/
inductive Answer (α : Type) where
  | item (found : Option α)
  | lookup (result : Except OutOfBounds α)
  | mark (position : Nat)
  | moved

/-- One move: its answer and the cursor after it. -/
def move (cursor : Cursor α) : Move → Answer α × Cursor α
  | .next => (.item cursor.next.1, cursor.next.2)
  | .peek => (.item cursor.peek, cursor)
  | .get index => (.lookup (cursor.get index), cursor)
  | .save => (.mark cursor.save, cursor)
  | .restore mark => (.moved, cursor.restore mark)
  | .rewindBy count => (.moved, cursor.rewindBy count)

/-- The answers of a sequence of moves, each with the position after it. -/
def moves (cursor : Cursor α) : List Move → List (Answer α × Nat)
  | [] => []
  | first :: rest =>
    let (answer, after) := cursor.move first
    (answer, after.pos) :: after.moves rest

end Cursor

end LinkScript
