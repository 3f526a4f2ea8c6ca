/-!
# Named values in order

`Fields` is a finite map from names to values that remembers an order, as it shows in printed
objects: names that are array indexes come first, by number, and the others follow in the order
in which they were first put in.  Putting in a name again changes its value and not its place.
-/

namespace LinkScript

/-- The number of a name that is an array index: decimal digits without a needless zero in front,
below 2^32 - 1. -/
def arrayIndex? (name : String) : Option Nat :=
  let chars := name.toList
  if chars.isEmpty || !chars.all Char.isDigit then none
  else if chars.head? = some '0' ∧ chars.length ≠ 1 then none
  else
    let index := Nat.ofDigitChars 10 chars 0
    if index < 4294967295 then some index else none

/-- A list of names with their values.  The operations below keep the names apart and in order. -/
abbrev Fields (α : Type) := List (String × α)

namespace Fields

variable {α β : Type}

/-- The value of a name. -/
def get? (fields : Fields α) (name : String) : Option α := fields.lookup name

/-- Whether a new name stands before another one that is there already. -/
def standsBefore (new old : String) : Bool :=
  match arrayIndex? new, arrayIndex? old with
  | some i, some j => i < j
  | some _, none => true
  | none, _ => false

/-- Puts a new name in its place. -/
def insertNew (name : String) (value : α) : Fields α → Fields α
  | [] => [(name, value)]
  | (old, oldValue) :: rest =>
    if standsBefore name old then (name, value) :: (old, oldValue) :: rest
    else (old, oldValue) :: insertNew name value rest

/-- Gives a name that is there a new value. -/
def replace (name : String) (value : α) : Fields α → Fields α
  | [] => []
  | (old, oldValue) :: rest =>
    if old = name then (old, value) :: rest else (old, oldValue) :: replace name value rest

/-- The fields with a name set to a value. -/
def insert (fields : Fields α) (name : String) (value : α) : Fields α :=
  if (fields.get? name).isSome then fields.replace name value else fields.insertNew name value

/-- The fields with others put in one after another. -/
def merge (fields others : Fields α) : Fields α :=
  others.foldl (fun fields other => fields.insert other.1 other.2) fields

/-- The fields that a list of names with values gives, put in one after another. -/
def ofList (pairs : List (String × α)) : Fields α := merge [] pairs

/-- The fields without a name. -/
def erase (fields : Fields α) (name : String) : Fields α := fields.filter (·.1 != name)

/-- The fields with every value changed. -/
def mapValues (f : α → β) (fields : Fields α) : Fields β :=
  fields.map fun field => (field.1, f field.2)

end Fields

end LinkScript
