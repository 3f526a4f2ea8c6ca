import LinkScript.Proofs.Script.Ahead
import LinkScript.Proofs.Token.Coverage

/-!
# Each move of a parser takes all it wants or nothing

`Proofs/Script/Ahead` says what the moves do by the list of the lexemes ahead.  Here the same is said
by positions, for a place that lies on a lexeme of a list with its only `eof` at the end.

* `Faces` says that lexemes of given types stand from a place on, one after the other.  `skip` takes
  them or stays (`skip_cases`).
* `demand` is `require` with the place that it leaves (`require_eq_demand`): where it has nothing to
  take, it blames the lexeme at the place and leaves the place as it was (`demand_cases`).
* `IsFirstOther` says of an index that the lexeme there is the first one of no given type.
  `skipAny_cases`: `skipAny` moves there, and moves no further when it is tried again.
-/

namespace LinkScript

/-- What is left of a list that ends in its only `eof`, short of its end, ends in the same way. -/
theorem Ended.drop {lexemes : List Lexeme} (ended : Ended lexemes) {count : Nat}
    (inside : count < lexemes.length) : Ended (lexemes.drop count) := by
  induction count generalizing lexemes with
  | zero => exact ended
  | succ count ih =>
    obtain ⟨first, rest, rfl⟩ := ended.exists_cons
    rw [List.length_cons] at inside
    have other : first.kind ≠ .eof := by
      intro eof
      rw [ended.rest_eq_nil eof, List.length_nil] at inside
      omega
    rw [List.drop_succ_cons]
    exact ih (ended.tail other) (by omega)

/-- Such a list holds its `eof`. -/
theorem Ended.exists_eof {lexemes : List Lexeme} (ended : Ended lexemes) :
    ∃ lexeme ∈ lexemes, lexeme.type = .eof := by
  obtain ⟨body, eof, rfl, kind, -⟩ := ended.exists_append
  exact ⟨eof, by simp, congrArg TokenKind.type kind⟩

/-- What lies ahead of a cursor, counted from its position. -/
theorem Cursor.getElem?_ahead {α : Type} (cursor : Cursor α) (k : Nat) :
    cursor.ahead[k]? = cursor.items[cursor.pos + k]? := by
  rw [ahead, List.getElem?_drop, Array.getElem?_toList]

namespace Place

variable {place : Place} {lexeme : Lexeme} {types : List TokenType} {type : TokenType}

/-! ## A sequence of types -/

/-- Lexemes of these types stand from a place on, one after the other. -/
def Faces (place : Place) (types : List TokenType) : Prop :=
  ∀ k (inside : k < types.length),
    ∃ lexeme, place.items[place.pos + k]? = some lexeme ∧ lexeme.type = types[k]

/-- They are the first ones ahead. -/
theorem faces_iff : place.Faces types ↔ types <+: place.ahead.map (·.type) := by
  rw [List.prefix_iff_getElem?]
  constructor
  · intro faces k inside
    obtain ⟨lexeme, found, type⟩ := faces k inside
    rw [List.getElem?_map, Cursor.getElem?_ahead, found, Option.map_some, type]
  · intro begins k inside
    have found := begins k inside
    rw [List.getElem?_map, Cursor.getElem?_ahead] at found
    exact Option.map_eq_some_iff.mp found

instance (place : Place) (types : List TokenType) : Decidable (place.Faces types) :=
  decidable_of_iff _ faces_iff.symm

/-- `skip` takes a sequence of types that stands at the place, and nothing otherwise. -/
theorem skip_cases (place : Place) (types : List TokenType) :
    place.Faces types ∧ place.skip types = (true, place.advance types.length) ∨
      ¬ place.Faces types ∧ place.skip types = (false, place) := by
  rw [skip_eq, faces_iff]
  by_cases begins : types <+: place.ahead.map (·.type)
  · exact Or.inl ⟨begins, if_pos begins⟩
  · exact Or.inr ⟨begins, if_neg begins⟩

/-! ## One lexeme -/

/-- `require` together with the place that it leaves, also where it has nothing to take: the lexeme
to blame is looked up at that place. -/
def demand (place : Place) (type : TokenType) : Except ParseFault Lexeme × Place :=
  match place.maybe type with
  | (some lexeme, after) => (.ok lexeme, after)
  | (none, after) => (.error (after.unexpected after.pos), after)

/-- `require` answers what `demand` does, with the place only where a lexeme is taken. -/
theorem require_eq_demand (place : Place) (type : TokenType) :
    place.require type = (place.demand type).1.map fun lexeme => (lexeme, (place.demand type).2) := by
  unfold require demand
  cases place.maybe type with
  | mk found after => cases found <;> rfl

/-- The lexeme at a place is the first one ahead. -/
theorem ahead_of_getElem? (found : place.items[place.pos]? = some lexeme) :
    ∃ rest, place.ahead = lexeme :: rest := by
  have first : place.ahead.head? = some lexeme := by
    rw [List.head?_eq_getElem?, Cursor.getElem?_ahead, Nat.add_zero, found]
  exact List.head?_eq_some_iff.mp first

/-- `maybe` takes the lexeme at the place if it has the type, and nothing otherwise. -/
theorem maybe_cases (found : place.items[place.pos]? = some lexeme) (type : TokenType) :
    lexeme.type = type ∧ place.maybe type = (some lexeme, place.advance 1) ∨
      lexeme.type ≠ type ∧ place.maybe type = (none, place) := by
  obtain ⟨rest, ahead⟩ := ahead_of_getElem? found
  rw [maybe_eq, ahead]
  by_cases fits : lexeme.type = type
  · exact Or.inl ⟨fits, if_pos fits⟩
  · exact Or.inr ⟨fits, if_neg fits⟩

/-- `demand` takes the lexeme at the place if it has the type, and otherwise blames it and leaves the
place as it was. -/
theorem demand_cases (found : place.items[place.pos]? = some lexeme) (type : TokenType) :
    lexeme.type = type ∧ place.demand type = (.ok lexeme, place.advance 1) ∨
      lexeme.type ≠ type ∧ place.demand type = (.error (.link lexeme.unexpected), place) := by
  obtain ⟨rest, ahead⟩ := ahead_of_getElem? found
  rcases maybe_cases found type with ⟨fits, taken⟩ | ⟨other, stays⟩
  · exact Or.inl ⟨fits, by rw [demand, taken]⟩
  · refine Or.inr ⟨other, ?_⟩
    rw [demand, stays]
    show (Except.error (place.unexpected place.pos), place) = _
    rw [unexpected_of_ahead_cons ahead]

/-- `maybeCommand` takes the lexeme at the place if it is a keyword, and nothing otherwise. -/
theorem maybeCommand_cases (found : place.items[place.pos]? = some lexeme) :
    (∃ keyword, lexeme.kind = .command keyword ∧
        place.maybeCommand = (some keyword, place.advance 1)) ∨
      lexeme.type ≠ .command ∧ place.maybeCommand = (none, place) := by
  obtain ⟨rest, ahead⟩ := ahead_of_getElem? found
  simp only [maybeCommand_eq, ahead, Token.type]
  cases lexeme.kind with
  | command keyword => exact Or.inl ⟨keyword, rfl, rfl⟩
  | _ => exact Or.inr ⟨nofun, rfl⟩

/-! ## All lexemes of some types -/

/-- At an index stands the first lexeme of no given type, from a place on. -/
structure IsFirstOther (place : Place) (types : List TokenType) (index : Nat) : Prop where
  pos_le : place.pos ≤ index
  other : ∃ lexeme, place.items[index]? = some lexeme ∧ lexeme.type ∉ types
  passed : ∀ k, place.pos ≤ k → k < index →
    ∃ lexeme, place.items[k]? = some lexeme ∧ lexeme.type ∈ types

/-- `skipAny` stays where the first lexeme ahead has none of the types. -/
theorem skipAny_of_ahead_cons {rest : List Lexeme} (ahead : place.ahead = lexeme :: rest)
    (other : lexeme.type ∉ types) : place.skipAny types = place := by
  rw [skipAny_eq, ahead, List.takeWhile_cons_of_neg (by simpa using other)]
  rfl

/-- `skipAny` moves to the first lexeme of no given type, and stays there when it is tried again. -/
theorem skipAny_cases (other : ∃ lexeme ∈ place.ahead, lexeme.type ∉ types) :
    ∃ index, place.IsFirstOther types index ∧ place.skipAny types = place.restore index ∧
      (place.skipAny types).skipAny types = place.skipAny types := by
  have some : (place.ahead.find? (fun lexeme => lexeme.type ∉ types)).isSome := by
    simpa [List.find?_isSome] using other
  obtain ⟨first, found⟩ := Option.isSome_iff_exists.mp some
  obtain ⟨stops, passed, rest, split, wanted⟩ := List.find?_eq_some_iff_append.mp found
  have stops : first.type ∉ types := by simpa using stops
  have wanted : ∀ lexeme ∈ passed, lexeme.type ∈ types := by simpa using wanted
  have moved : place.skipAny types = place.advance passed.length := by
    rw [skipAny_eq, split, List.takeWhile_append_of_pos (by simpa using wanted),
      List.takeWhile_cons_of_neg (by simpa using stops), List.append_nil]
  have behind : (place.advance passed.length).ahead = first :: rest := by
    rw [Cursor.ahead_advance, split, List.drop_left]
  refine ⟨place.pos + passed.length, ⟨Nat.le_add_right _ _, ⟨first, ?_, stops⟩, ?_⟩, moved, ?_⟩
  · rw [← Cursor.getElem?_ahead, split, List.getElem?_append_right (Nat.le_refl _), Nat.sub_self,
      List.getElem?_cons_zero]
  · intro k behind before
    obtain ⟨n, rfl⟩ := Nat.exists_eq_add_of_le behind
    have inside : n < passed.length := by omega
    refine ⟨passed[n], ?_, wanted _ (List.getElem_mem inside)⟩
    rw [← Cursor.getElem?_ahead, split, List.getElem?_append_left inside,
      List.getElem?_eq_getElem inside]
  · rw [moved, skipAny_of_ahead_cons behind stops]

/-! ## All moves -/

/-- **Each move takes all it wants or leaves the place as it was**, for a place at the only `eof` of
its lexemes or before it.

* `skip` takes lexemes of exactly the given types, even if they go beyond the `eof`, and none
  otherwise.
* `maybe`, `maybeCommand` and `require` take the lexeme at the place if it is what they want.
  Otherwise the place is as it was, and `require` blames this lexeme.
* `skipAny`, if it may not take the `eof`, moves to the first lexeme of no given type, where it takes
  nothing more. -/
theorem moves_all_or_nothing (ended : Ended place.items.toList)
    (inside : place.pos < place.items.size) :
    (∀ types, place.Faces types ∧ place.skip types = (true, place.advance types.length) ∨
      ¬ place.Faces types ∧ place.skip types = (false, place)) ∧
    (∃ lexeme, place.items[place.pos]? = some lexeme ∧
      (∀ type, lexeme.type = type ∧ place.maybe type = (some lexeme, place.advance 1) ∨
        lexeme.type ≠ type ∧ place.maybe type = (none, place)) ∧
      ((∃ keyword, lexeme.kind = .command keyword ∧
          place.maybeCommand = (some keyword, place.advance 1)) ∨
        lexeme.type ≠ .command ∧ place.maybeCommand = (none, place)) ∧
      ∀ type, lexeme.type = type ∧ place.require type = .ok (lexeme, place.advance 1) ∧
          place.demand type = (.ok lexeme, place.advance 1) ∨
        lexeme.type ≠ type ∧ place.require type = .error (.link lexeme.unexpected) ∧
          place.demand type = (.error (.link lexeme.unexpected), place)) ∧
    ∀ types, .eof ∉ types →
      ∃ index, place.IsFirstOther types index ∧ place.skipAny types = place.restore index ∧
        (place.skipAny types).skipAny types = place.skipAny types := by
  refine ⟨skip_cases place, ?_, ?_⟩
  · have found : place.items[place.pos]? = some place.items[place.pos] :=
      Array.getElem?_eq_getElem inside
    refine ⟨_, found, maybe_cases found, maybeCommand_cases found, ?_⟩
    intro type
    rcases demand_cases found type with ⟨fits, taken⟩ | ⟨other, blamed⟩
    · exact Or.inl ⟨fits, by rw [require_eq_demand, taken]; rfl, taken⟩
    · exact Or.inr ⟨other, by rw [require_eq_demand, blamed]; rfl, blamed⟩
  · intro types noEof
    -- the `eof` is ahead, and it has none of the types
    obtain ⟨eof, mem, type⟩ := (ended.drop (by simpa using inside)).exists_eof
    exact skipAny_cases ⟨eof, mem, type ▸ noEof⟩

/-- At the bracket of an open list, a sequence that goes beyond the `eof` is not begun. -/
theorem moves_all_or_nothing_open :
    let place : Place := ⟨(scan (Text.Utf8.encode "(a")).toArray, 0⟩
    Ended place.items.toList ∧ place.pos < place.items.size ∧
      place.skip [.lparen, .literal, .eof] = (true, place.advance 3) ∧
      place.skip [.lparen, .literal, .eof, .rparen] = (false, place) ∧
      (∃ lexeme, place.items[place.pos]? = some lexeme ∧
        place.demand .literal = (.error (.link lexeme.unexpected), place)) ∧
      ∃ index, place.IsFirstOther [.literal, .lparen] index ∧
        place.skipAny [.literal, .lparen] = place.restore index := by
  intro place
  have ended : Ended place.items.toList := (scan_tiled _).ended
  have inside : place.pos < place.items.size := by decide +kernel
  obtain ⟨skips, ⟨lexeme, found, -, -, demands⟩, skipsAny⟩ := moves_all_or_nothing ended inside
  have whole : place.Faces [.lparen, .literal, .eof] := by decide +kernel
  have beyond : ¬ place.Faces [.lparen, .literal, .eof, .rparen] := by decide +kernel
  have bracket : ∀ lexeme, place.items[place.pos]? = some lexeme → lexeme.type ≠ .literal := by
    decide +kernel
  refine ⟨ended, inside, ?_, ?_, ⟨lexeme, found, ?_⟩, ?_⟩
  · exact ((skips _).resolve_right fun none => none.1 whole).2
  · exact ((skips _).resolve_left fun all => beyond all.1).2
  · exact ((demands .literal).resolve_left fun taken => bracket lexeme found taken.1).2.2
  · obtain ⟨index, first, moved, -⟩ := skipsAny [.literal, .lparen] (by decide)
    exact ⟨index, first, moved⟩

end Place

end LinkScript
