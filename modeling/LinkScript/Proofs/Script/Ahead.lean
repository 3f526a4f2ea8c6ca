import LinkScript.Script.Navigation

/-!
# The moves of a parser, by the lexemes ahead

A cursor is an array with a position, and every move of `Script/Navigation` is written with
positions noted and restored.  What a move does depends only on the items that are still to come.

* `Cursor.ahead` is the list of the items at the cursor and behind it, and `Cursor.advance` is the
  cursor a number of items further on.
* `Place.skip_eq`, `Place.skipAny_eq`, `Place.maybe_eq`, `Place.maybeCommand_eq` and
  `Place.require_of_ahead_cons` say what each move does in these two words alone: it advances by what
  it takes, or it leaves the place as it is.

Nothing is assumed of the place: it may lie at the end of the lexemes or past it, where nothing is
ahead and every move stays.
-/

namespace LinkScript

/-! ## What lies ahead of a cursor -/

namespace Cursor

variable {α : Type} {cursor : Cursor α} {item : α} {rest : List α}

/-- The items at the cursor and behind it. -/
def ahead (cursor : Cursor α) : List α := cursor.items.toList.drop cursor.pos

/-- The cursor a number of items further on. -/
def advance (cursor : Cursor α) (count : Nat) : Cursor α :=
  { cursor with pos := cursor.pos + count }

/-- Going on by nothing is staying. -/
@[simp] theorem advance_zero (cursor : Cursor α) : cursor.advance 0 = cursor := rfl

/-- Two advances are one. -/
@[simp] theorem advance_advance (cursor : Cursor α) (m n : Nat) :
    (cursor.advance m).advance n = cursor.advance (m + n) := by
  simp only [advance, Nat.add_assoc]

/-- Going on leaves fewer items ahead. -/
@[simp] theorem ahead_advance (cursor : Cursor α) (count : Nat) :
    (cursor.advance count).ahead = cursor.ahead.drop count := by
  simp only [ahead, advance, List.drop_drop]

/-- The item under the cursor is the first one ahead. -/
theorem peek_eq_head? (cursor : Cursor α) : cursor.peek = cursor.ahead.head? := by
  simp only [peek, ahead, List.head?_drop, Array.getElem?_toList]

/-- With an item ahead, `next` takes it. -/
theorem next_of_ahead_cons (h : cursor.ahead = item :: rest) :
    cursor.next = (some item, cursor.advance 1) := by
  have under : cursor.peek = some item := by rw [peek_eq_head?, h, List.head?_cons]
  simp only [next, under, advance]

/-- With nothing ahead, `next` stays. -/
theorem next_of_ahead_nil (h : cursor.ahead = []) : cursor.next = (none, cursor) := by
  have under : cursor.peek = none := by rw [peek_eq_head?, h, List.head?_nil]
  simp only [next, under]

/-- An item that `next` takes is the first one ahead. -/
theorem ahead_of_next_some {after : Cursor α} (h : cursor.next = (some item, after)) :
    cursor.ahead = item :: after.ahead ∧ after = cursor.advance 1 := by
  cases before : cursor.ahead with
  | nil =>
    rw [next_of_ahead_nil before] at h
    cases h
  | cons first rest =>
    rw [next_of_ahead_cons before] at h
    cases h
    rw [ahead_advance, before, List.drop_one, List.tail_cons]
    exact ⟨rfl, rfl⟩

/-- Where `next` takes nothing, nothing is ahead. -/
theorem ahead_of_next_none {after : Cursor α} (h : cursor.next = (none, after)) :
    cursor.ahead = [] := by
  cases before : cursor.ahead with
  | nil => rfl
  | cons first rest =>
    rw [next_of_ahead_cons before] at h
    cases h

/-- The item at the position of a cursor with something ahead. -/
theorem get_pos_of_ahead_cons (h : cursor.ahead = item :: rest) :
    cursor.get cursor.pos = .ok item := by
  have under : cursor.items[cursor.pos]? = some item := by
    have := peek_eq_head? cursor
    rwa [h, List.head?_cons] at this
  have inside : ¬ (cursor.pos : Int) < 0 := by omega
  simp only [get, if_neg inside, Int.toNat_natCast, under]

end Cursor

/-! ## The moves -/

/-- The failure that blames a lexeme. -/
def Lexeme.unexpected (lexeme : Lexeme) : LinkFailure :=
  ⟨.unexpectedToken lexeme.type lexeme.text, lexeme.position⟩

namespace Place

variable {place : Place} {lexeme : Lexeme} {rest : List Lexeme}

/-- The lexeme to blame at a place is the first one ahead. -/
theorem unexpected_of_ahead_cons (h : place.ahead = lexeme :: rest) :
    place.unexpected place.pos = .link lexeme.unexpected := by
  simp only [unexpected, Cursor.get_pos_of_ahead_cons h, Lexeme.unexpected]

/-- Lexemes of given types stand behind a place exactly if those ahead begin with these types. -/
theorem behind?_eq (place : Place) (types : List TokenType) :
    place.behind? types =
      if types <+: place.ahead.map (·.type) then some (place.advance types.length) else none := by
  induction types generalizing place with
  | nil => simp [behind?]
  | cons type types ih =>
    cases h : place.ahead with
    | nil => simp [behind?, Cursor.next_of_ahead_nil h]
    | cons lexeme rest =>
      have behind : (place.advance 1).ahead = rest := by
        rw [Cursor.ahead_advance, h, List.drop_one, List.tail_cons]
      simp only [behind?, Cursor.next_of_ahead_cons h, ih, behind, List.map_cons,
        List.cons_prefix_cons, List.length_cons, Cursor.advance_advance]
      by_cases same : lexeme.type = type
      · simp [same, Nat.add_comm]
      · simp [same, Ne.symm same]

/-- `skip` takes a sequence of types if the lexemes ahead begin with it, and stays otherwise. -/
theorem skip_eq (place : Place) (types : List TokenType) :
    place.skip types =
      if types <+: place.ahead.map (·.type) then (true, place.advance types.length)
      else (false, place) := by
  unfold skip
  rw [behind?_eq]
  by_cases fits : types <+: place.ahead.map (·.type)
  · simp only [if_pos fits]
  · simp only [if_neg fits]
    rfl

/-- `skipAny` takes the longest run of lexemes of the given types. -/
theorem skipAny_eq (place : Place) (types : List TokenType) :
    place.skipAny types =
      place.advance (place.ahead.takeWhile (fun lexeme => lexeme.type ∈ types)).length := by
  fun_induction skipAny place types with
  | case1 place lexeme after taken wanted ih =>
    obtain ⟨ahead, rfl⟩ := Cursor.ahead_of_next_some taken
    rw [ih, ahead, List.takeWhile_cons_of_pos (by simpa using wanted), Cursor.advance_advance,
      List.length_cons, Nat.add_comm]
  | case2 place lexeme after taken unwanted =>
    obtain ⟨ahead, -⟩ := Cursor.ahead_of_next_some taken
    rw [Cursor.rewindBy_one_of_next taken, ahead,
      List.takeWhile_cons_of_neg (by simpa using unwanted), List.length_nil, Cursor.advance_zero]
  | case3 place after taken =>
    rw [Cursor.ahead_of_next_none taken, List.takeWhile_nil, List.length_nil, Cursor.advance_zero,
      Cursor.next_eq_none taken]

/-- What is ahead behind `skipAny` begins with a lexeme of no given type. -/
theorem ahead_skipAny (place : Place) (types : List TokenType) :
    (place.skipAny types).ahead = place.ahead.dropWhile (fun lexeme => lexeme.type ∈ types) := by
  let wanted : Lexeme → Bool := fun lexeme => lexeme.type ∈ types
  have cut : (place.ahead.takeWhile wanted ++ place.ahead.dropWhile wanted).drop
      (place.ahead.takeWhile wanted).length = place.ahead.dropWhile wanted := List.drop_left
  rw [List.takeWhile_append_dropWhile] at cut
  rw [skipAny_eq, Cursor.ahead_advance]
  exact cut

/-- `maybe` takes the first lexeme ahead if it has the type, and stays otherwise. -/
theorem maybe_eq (place : Place) (type : TokenType) :
    place.maybe type =
      match place.ahead with
      | [] => (none, place)
      | lexeme :: _ =>
        if lexeme.type = type then (some lexeme, place.advance 1) else (none, place) := by
  cases h : place.ahead with
  | nil =>
    simp only [maybe, Cursor.next_of_ahead_nil h]
    rfl
  | cons lexeme rest =>
    simp only [maybe, Cursor.next_of_ahead_cons h]
    rfl

/-- `maybeCommand` takes the first lexeme ahead if it is a keyword, and stays otherwise. -/
theorem maybeCommand_eq (place : Place) :
    place.maybeCommand =
      match place.ahead with
      | [] => (none, place)
      | lexeme :: _ =>
        match lexeme.kind.command? with
        | some keyword => (some keyword, place.advance 1)
        | none => (none, place) := by
  cases h : place.ahead with
  | nil =>
    simp only [maybeCommand, Cursor.next_of_ahead_nil h]
    rfl
  | cons lexeme rest =>
    simp only [maybeCommand, Cursor.next_of_ahead_cons h]
    rfl

/-- `require` takes the first lexeme ahead if it has the type, and blames it otherwise. -/
theorem require_of_ahead_cons (h : place.ahead = lexeme :: rest) (type : TokenType) :
    place.require type =
      if lexeme.type = type then .ok (lexeme, place.advance 1)
      else .error (.link lexeme.unexpected) := by
  by_cases fits : lexeme.type = type
  · simp only [require, maybe_eq, h, if_pos fits]
  · simp only [require, maybe_eq, h, if_neg fits, unexpected_of_ahead_cons h]

/-! ## What was ahead, by the answer of a move -/

variable {after : Place} {type : TokenType}

/-- The lexeme that `maybe` takes was the first one ahead. -/
theorem ahead_of_maybe_some (h : place.maybe type = (some lexeme, after)) :
    place.ahead = lexeme :: after.ahead ∧ lexeme.type = type := by
  rw [maybe_eq] at h
  cases ahead : place.ahead with
  | nil => simp [ahead] at h
  | cons first rest =>
    simp only [ahead] at h
    split at h
    · next fits =>
      cases h
      exact ⟨by simp [ahead], fits⟩
    · simp at h

/-- Where `maybe` takes nothing, the first lexeme ahead has another type. -/
theorem ahead_of_maybe_none (h : place.maybe type = (none, after))
    (ahead : place.ahead = lexeme :: rest) : lexeme.type ≠ type := by
  rw [maybe_eq, ahead] at h
  dsimp only at h
  split at h
  · simp at h
  · assumption

/-- The keyword that `maybeCommand` takes was the first lexeme ahead. -/
theorem ahead_of_maybeCommand_some {keyword : Command}
    (h : place.maybeCommand = (some keyword, after)) :
    ∃ lexeme, place.ahead = lexeme :: after.ahead ∧ lexeme.kind = .command keyword := by
  rw [maybeCommand_eq] at h
  cases ahead : place.ahead with
  | nil => simp [ahead] at h
  | cons first rest =>
    simp only [ahead] at h
    split at h
    · next found keyword =>
      cases h
      refine ⟨first, by simp [ahead], ?_⟩
      cases kind : first.kind <;> simp_all [TokenKind.command?]
    · simp at h

/-- Where `maybeCommand` takes nothing, the first lexeme ahead is no keyword. -/
theorem ahead_of_maybeCommand_none (h : place.maybeCommand = (none, after))
    (ahead : place.ahead = lexeme :: rest) (keyword : Command) :
    lexeme.kind ≠ .command keyword := by
  intro kind
  rw [maybeCommand_eq, ahead] at h
  simp [kind, TokenKind.command?] at h

end Place

/-- For every type but that of keywords, to have the type is to be of the kind. -/
theorem Lexeme.type_eq_iff (lexeme : Lexeme) (kind : TokenKind) (plain : kind.type ≠ .command) :
    lexeme.type = kind.type ↔ lexeme.kind = kind := by
  unfold Token.type
  cases found : lexeme.kind <;> cases kind <;> simp_all [TokenKind.type]

end LinkScript
