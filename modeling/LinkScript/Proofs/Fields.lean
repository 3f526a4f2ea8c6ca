import LinkScript.Fields
import LinkScript.Proofs.Json.Number
import Mathlib.Data.List.Induction
import Mathlib.Data.List.Nodup

/-!
# What putting in fields one after another gives

`Fields.ofList` puts in pairs of a name and a value one after another.  `Fields.Overlays` says what
the outcome is without saying how it comes about: every name has the last value that it was given,
no name stands twice, and the names are in the order that `Fields.Precedes` describes, with array
indexes first, by number, and the others as they first came.  One pair more keeps this
(`Overlays.insert`), and so all pairs do (`overlays_ofList`).

Fields that are the outcome of such a run are left as they are when they are put in once more, into
nothing (`Overlays.merge_nil`).  Pairs with names that are apart are all in the outcome
(`ofList_perm`), where every name has the value that it stands with (`get?_eq_some_iff_mem`).

The description fits one outcome only (`Overlays.unique`).  It is kept when a name is left out
(`Overlays.erase`), and pairs may be replaced in it by what they give (`Overlays.settle`), so runs
that are cut up otherwise are told to end in the same fields without following them.
-/

namespace LinkScript

/-! ## Array indexes -/

/-- A digit is below ten and is the digit for its value. -/
theorem digitChar_of_isDigit {c : Char} (isDigit : c.isDigit) :
    c.toNat - '0'.toNat < 10 ∧ Nat.digitChar (c.toNat - '0'.toNat) = c := by
  obtain ⟨low, high⟩ := Char.isDigit_iff_toNat.mp isDigit
  change 48 ≤ c.toNat at low
  change c.toNat ≤ 57 at high
  have small : c.toNat - '0'.toNat < 10 := show c.toNat - 48 < 10 by omega
  refine ⟨small, Char.toNat_inj.mp ?_⟩
  rw [Nat.toNat_digitChar_of_lt_ten small]
  change 48 + (c.toNat - 48) = c.toNat
  omega

/-- Digits that are read on from a number other than zero are spelled behind it. -/
theorem toDigits_ofDigitChars {digits : List Char} (isDigit : ∀ c ∈ digits, c.isDigit) {n : Nat}
    (positive : 0 < n) :
    Nat.toDigits 10 (Nat.ofDigitChars 10 digits n) = Nat.toDigits 10 n ++ digits := by
  induction digits generalizing n with
  | nil => rw [Nat.ofDigitChars_nil, List.append_nil]
  | cons first rest ih =>
    obtain ⟨small, spelled⟩ := digitChar_of_isDigit (isDigit first List.mem_cons_self)
    have pushed := Nat.toDigits_append_toDigits (by decide : 1 < 10) positive small
    rw [Nat.ofDigitChars_cons, ih (fun c mem => isDigit c (List.mem_cons_of_mem _ mem)) (by omega),
      ← pushed, Nat.toDigits_of_lt_base small, spelled, List.append_assoc, List.singleton_append]

/-- Digits without a needless zero in front are how the number is spelled that they are read as. -/
theorem toDigits_ofDigitChars_zero {first : Char} {rest : List Char}
    (isDigit : ∀ c ∈ first :: rest, c.isDigit) (lead : first = '0' → rest = []) :
    Nat.toDigits 10 (Nat.ofDigitChars 10 (first :: rest) 0) = first :: rest := by
  by_cases zero : first = '0'
  · rw [zero, lead zero]
    rfl
  · obtain ⟨small, spelled⟩ := digitChar_of_isDigit (isDigit first List.mem_cons_self)
    have positive : 0 < first.toNat - '0'.toNat := by
      by_contra none
      rw [Nat.eq_zero_of_not_pos none] at spelled
      exact zero spelled.symm
    rw [Nat.ofDigitChars_cons, Nat.mul_zero, Nat.zero_add,
      toDigits_ofDigitChars (fun c mem => isDigit c (List.mem_cons_of_mem _ mem)) positive,
      Nat.toDigits_of_lt_base small, spelled, List.singleton_append]

/-- The names that are array indexes are the numbers below 2^32 - 1 as they are spelled. -/
theorem arrayIndex?_eq_some_iff {name : String} {index : Nat} :
    arrayIndex? name = some index ↔
      name.toList = Nat.toDigits 10 index ∧ index < 4294967295 := by
  constructor
  · intro found
    rw [arrayIndex?] at found
    cases chars : name.toList with
    | nil => simp [chars] at found
    | cons first rest =>
      simp only [chars, List.isEmpty_cons, Bool.false_or, Bool.not_eq_true', List.head?_cons,
        Option.some.injEq, List.length_cons, Option.ite_none_left_eq_some,
        Option.ite_none_right_eq_some, Bool.not_eq_false, List.all_eq_true] at found
      obtain ⟨isDigit, lead, small, rfl⟩ := found
      refine ⟨(toDigits_ofDigitChars_zero isDigit fun zero => ?_).symm, small⟩
      by_contra more
      exact lead ⟨zero, by simpa using more⟩
  · rintro ⟨spelled, small⟩
    obtain ⟨isDigit, nonempty, lead, value⟩ := Json.isNatural_toDigits index
    have first : ¬((Nat.toDigits 10 index).head? = some '0' ∧
        (Nat.toDigits 10 index).length ≠ 1) := by
      rintro ⟨zero, long⟩
      exact long (by rw [(lead zero).1]; rfl)
    simp [arrayIndex?, spelled, nonempty, first, value, small, List.all_eq_true.mpr isDigit]

/-- Two names are not the same array index. -/
theorem eq_of_arrayIndex? {first second : String} {index : Nat}
    (here : arrayIndex? first = some index) (there : arrayIndex? second = some index) :
    first = second :=
  String.toList_inj.mp <|
    (arrayIndex?_eq_some_iff.mp here).1.trans (arrayIndex?_eq_some_iff.mp there).1.symm

namespace Fields

variable {α β : Type}

/-! ## What the outcome is -/

/-- Whether one name stands before another when names are put in in a given order: array indexes
come first, by number, and the others follow as they first come. -/
def Precedes (names : List String) (first second : String) : Prop :=
  match arrayIndex? first, arrayIndex? second with
  | some i, some j => i < j
  | some _, none => True
  | none, some _ => False
  | none, none => names.idxOf first < names.idxOf second

/-- Fields are what pairs give that are put in one after another: every name has its last value,
and the names are apart and in order. -/
structure Overlays (pairs : List (String × α)) (fields : Fields α) : Prop where
  last : ∀ name, fields.get? name = pairs.reverse.lookup name
  distinct : (fields.map Prod.fst).Nodup
  ordered : (fields.map Prod.fst).Pairwise (Precedes (pairs.map Prod.fst))

/-! ## One pair more -/

/-- A name is looked up in the first field, and then in the others. -/
theorem get?_cons (old : String) (value : α) (rest : Fields α) (name : String) :
    get? ((old, value) :: rest) name = if name = old then some value else get? rest name := by
  rw [get?, List.lookup_cons]
  by_cases same : name = old
  · rw [if_pos same, beq_iff_eq.mpr same]
  · rw [if_neg same, beq_false_of_ne same, get?]

/-- Where names are apart, the values that they have are those that they stand with. -/
theorem get?_eq_some_iff_mem {fields : Fields α} (distinct : (fields.map Prod.fst).Nodup)
    {name : String} {value : α} : fields.get? name = some value ↔ (name, value) ∈ fields := by
  induction fields with
  | nil => simp [get?]
  | cons field rest ih =>
    obtain ⟨old, oldValue⟩ := field
    rw [List.map_cons, List.nodup_cons] at distinct
    rw [get?_cons, List.mem_cons]
    by_cases same : name = old
    · subst same
      have nowhere : (name, value) ∉ rest := fun mem =>
        distinct.1 (List.mem_map.mpr ⟨_, mem, rfl⟩)
      simp [nowhere, eq_comm]
    · simp [same, ih distinct.2]

/-- The names of fields are those that have a value. -/
theorem mem_names_iff {fields : Fields α} {name : String} :
    name ∈ fields.map Prod.fst ↔ (fields.get? name).isSome := by
  induction fields with
  | nil => simp [get?]
  | cons field rest ih =>
    rw [List.map_cons, List.mem_cons, ih, get?_cons]
    split <;> simp [*]

section

variable (name : String) (value : α)

/-- A new value changes no name. -/
theorem names_replace (fields : Fields α) :
    (fields.replace name value).map Prod.fst = fields.map Prod.fst := by
  induction fields with
  | nil => rfl
  | cons field rest ih =>
    obtain ⟨old, oldValue⟩ := field
    rw [replace]
    split
    · rfl
    · rw [List.map_cons, List.map_cons, ih]

/-- A new name is one name more, wherever it is put. -/
theorem insertNew_perm (fields : Fields α) :
    (fields.insertNew name value).Perm ((name, value) :: fields) := by
  induction fields with
  | nil => exact .refl _
  | cons field rest ih =>
    obtain ⟨old, oldValue⟩ := field
    rw [insertNew]
    split
    · exact .refl _
    · exact (ih.cons _).trans (.swap _ _ _)

variable {name}

/-- Where a value is replaced, it is found, and every other name finds what it did. -/
theorem get?_replace {fields : Fields α} (there : name ∈ fields.map Prod.fst) (other : String) :
    (fields.replace name value).get? other =
      if other = name then some value else fields.get? other := by
  induction fields with
  | nil => simp at there
  | cons field rest ih =>
    obtain ⟨old, oldValue⟩ := field
    rw [replace]
    by_cases same : old = name
    · subst same
      rw [if_pos rfl, get?_cons, get?_cons]
      split <;> rfl
    · rw [List.map_cons, List.mem_cons] at there
      rw [if_neg same, get?_cons, get?_cons, ih (there.resolve_left (Ne.symm same))]
      by_cases asked : other = old
      · rw [if_pos asked, if_pos asked, if_neg (asked ▸ same)]
      · rw [if_neg asked, if_neg asked]

/-- Where a field is added, its value is found, and every other name finds what it did. -/
theorem get?_insertNew {fields : Fields α} (absent : name ∉ fields.map Prod.fst) (other : String) :
    (fields.insertNew name value).get? other =
      if other = name then some value else fields.get? other := by
  induction fields with
  | nil => rw [insertNew, get?_cons]
  | cons field rest ih =>
    obtain ⟨old, oldValue⟩ := field
    rw [List.map_cons, List.mem_cons, not_or] at absent
    rw [insertNew]
    split
    · rw [get?_cons]
    · rw [get?_cons, get?_cons, ih absent.2]
      by_cases asked : other = old
      · rw [if_pos asked, if_pos asked, if_neg (asked ▸ Ne.symm absent.1)]
      · rw [if_neg asked, if_neg asked]

/-- A name that is not there is put in as a new one. -/
theorem insert_of_not_mem {fields : Fields α} (absent : name ∉ fields.map Prod.fst) :
    fields.insert name value = fields.insertNew name value := by
  rw [insert, if_neg (mt mem_names_iff.mpr absent)]

/-- A name that is put in has its value, and the others have theirs. -/
theorem get?_insert (fields : Fields α) (other : String) :
    (fields.insert name value).get? other =
      if other = name then some value else fields.get? other := by
  rw [insert]
  split
  · next there => exact get?_replace value (mem_names_iff.mpr there) other
  · next absent => exact get?_insertNew value (mt mem_names_iff.mp absent) other

variable {value}

/-- A field that is added adds its name and no other. -/
theorem mem_names_insertNew {fields : Fields α} {other : String} :
    other ∈ (fields.insertNew name value).map Prod.fst ↔
      other = name ∨ other ∈ fields.map Prod.fst := by
  rw [((insertNew_perm name value fields).map Prod.fst).mem_iff, List.map_cons, List.mem_cons]

end

/-! ## The order -/

section

variable {names : List String} {name first second third : String}

/-- Coming before is transitive. -/
theorem Precedes.trans (left : Precedes names first second) (right : Precedes names second third) :
    Precedes names first third := by
  revert left right
  unfold Precedes
  cases arrayIndex? first <;> cases arrayIndex? second <;> cases arrayIndex? third <;>
    simp only [IsEmpty.forall_iff, implies_true] <;> exact Nat.lt_trans

/-- A name more at the end changes nothing about the names before it. -/
theorem Precedes.append (precedes : Precedes names first second) (here : first ∈ names)
    (there : second ∈ names) : Precedes (names ++ [name]) first second := by
  unfold Precedes at *
  rwa [List.idxOf_append, if_pos here, List.idxOf_append, if_pos there]

/-- A new name is put in front of names that it precedes. -/
theorem precedes_of_standsBefore (stands : standsBefore name first) :
    Precedes names name first := by
  revert stands
  unfold standsBefore Precedes
  cases arrayIndex? name <;> cases arrayIndex? first <;> simp

/-- A new name is put behind names that precede it. -/
theorem precedes_of_not_standsBefore (stands : ¬standsBefore name first) (new : name ∉ names)
    (there : first ∈ names) : Precedes (names ++ [name]) first name := by
  unfold standsBefore at stands
  unfold Precedes
  cases newIndex : arrayIndex? name with
  | none =>
    cases arrayIndex? first with
    | none =>
      simp only
      rw [List.idxOf_append, if_pos there, List.idxOf_append, if_neg new]
      have inside := List.idxOf_lt_length_of_mem there
      omega
    | some => trivial
  | some i =>
    cases oldIndex : arrayIndex? first with
    | none => simp [newIndex, oldIndex] at stands
    | some j =>
      have differ : i ≠ j := by
        rintro rfl
        exact new (eq_of_arrayIndex? newIndex oldIndex ▸ there)
      simp only [newIndex, oldIndex, decide_eq_true_eq] at stands
      simp only
      omega

/-- No name is put in front of one that precedes it. -/
theorem Precedes.not_standsBefore (precedes : Precedes names first second) :
    ¬standsBefore second first := by
  revert precedes
  unfold standsBefore Precedes
  cases arrayIndex? first <;> cases arrayIndex? second <;> simp
  exact Nat.le_of_lt

/-- A new name that is put in its place keeps the order. -/
theorem ordered_insertNew {fields : Fields α} (value : α)
    (ordered : (fields.map Prod.fst).Pairwise (Precedes names))
    (behind : ∀ old ∈ fields.map Prod.fst, ¬standsBefore name old → Precedes names old name) :
    ((fields.insertNew name value).map Prod.fst).Pairwise (Precedes names) := by
  induction fields with
  | nil => exact List.pairwise_singleton _ _
  | cons field rest ih =>
    obtain ⟨old, oldValue⟩ := field
    rw [List.map_cons, List.pairwise_cons] at ordered
    rw [insertNew]
    split
    · next stands =>
      have front : Precedes names name old := precedes_of_standsBefore stands
      simp only [List.map_cons, List.pairwise_cons, List.mem_cons]
      refine ⟨?_, ordered⟩
      rintro other (rfl | mem)
      · exact front
      · exact front.trans (ordered.1 other mem)
    · next stands =>
      rw [List.map_cons, List.pairwise_cons]
      refine ⟨fun other mem => ?_,
        ih ordered.2 fun later mem => behind later (List.mem_cons_of_mem _ mem)⟩
      obtain rfl | mem := mem_names_insertNew.mp mem
      · exact behind old List.mem_cons_self stands
      · exact ordered.1 other mem

end

/-! ## All pairs -/

namespace Overlays

variable {pairs : List (String × α)} {fields : Fields α}

/-- Nothing written is nothing. -/
theorem nil : Overlays ([] : List (String × α)) [] :=
  ⟨fun _ => rfl, List.nodup_nil, .nil⟩

/-- The names of the outcome are those that were put in. -/
theorem mem_iff (overlays : Overlays pairs fields) {name : String} :
    name ∈ fields.map Prod.fst ↔ name ∈ pairs.map Prod.fst := by
  have reversed : name ∈ pairs.reverse.map Prod.fst ↔ name ∈ pairs.map Prod.fst := by
    rw [List.map_reverse, List.mem_reverse]
  rw [mem_names_iff, overlays.last, ← reversed, mem_names_iff, get?]

/-- Putting in one pair more gives the outcome for one pair more. -/
theorem insert (overlays : Overlays pairs fields) (name : String) (value : α) :
    Overlays (pairs ++ [(name, value)]) (fields.insert name value) := by
  have last (other : String) : (fields.insert name value).get? other =
      (pairs ++ [(name, value)]).reverse.lookup other := by
    rw [get?_insert, overlays.last, List.reverse_append]
    exact (get?_cons name value pairs.reverse other).symm
  have kept : (fields.map Prod.fst).Pairwise (Precedes (pairs.map Prod.fst ++ [name])) :=
    overlays.ordered.imp_of_mem fun here there precedes =>
      precedes.append (overlays.mem_iff.mp here) (overlays.mem_iff.mp there)
  by_cases there : (fields.get? name).isSome
  · have names : (fields.insert name value).map Prod.fst = fields.map Prod.fst := by
      rw [Fields.insert, if_pos there, names_replace]
    refine ⟨last, names ▸ overlays.distinct, ?_⟩
    rw [names, List.map_append]
    exact kept
  · have absent : name ∉ fields.map Prod.fst := mt mem_names_iff.mp there
    refine ⟨last, ?_, ?_⟩ <;> rw [insert_of_not_mem value absent]
    · rw [((insertNew_perm name value fields).map Prod.fst).nodup_iff]
      exact List.nodup_cons.mpr ⟨absent, overlays.distinct⟩
    · rw [List.map_append]
      refine ordered_insertNew value kept fun old mem stands => ?_
      exact precedes_of_not_standsBefore stands (mt overlays.mem_iff.mpr absent)
        (overlays.mem_iff.mp mem)

/-- Putting in more pairs gives the outcome for all of them. -/
theorem append (overlays : Overlays pairs fields) (more : List (String × α)) :
    Overlays (pairs ++ more) (fields.merge more) := by
  induction more using List.reverseRecOn with
  | nil =>
    rw [List.append_nil]
    exact overlays
  | append_singleton front last ih =>
    rw [← List.append_assoc, Fields.merge, List.foldl_append]
    exact ih.insert last.1 last.2

end Overlays

/-- The last pair is put in behind the others. -/
theorem ofList_concat (front : List (String × α)) (last : String × α) :
    ofList (front ++ [last]) = (ofList front).insert last.1 last.2 := by
  unfold ofList merge
  rw [List.foldl_append]
  rfl

/-- Pairs that are put in one after another give what they should. -/
theorem overlays_ofList (pairs : List (String × α)) : Overlays pairs (ofList pairs) :=
  Overlays.nil.append pairs

/-- Pairs with names that are apart are all kept. -/
theorem ofList_perm {pairs : List (String × α)} (distinct : (pairs.map Prod.fst).Nodup) :
    (ofList pairs).Perm pairs := by
  induction pairs using List.reverseRecOn with
  | nil => exact .refl _
  | append_singleton front last ih =>
    rw [List.map_append, List.map_cons, List.map_nil, List.nodup_append] at distinct
    obtain ⟨apart, -, fresh⟩ := distinct
    have absent : last.1 ∉ (ofList front).map Prod.fst := by
      rw [(overlays_ofList front).mem_iff]
      exact fun mem => fresh last.1 mem last.1 List.mem_cons_self rfl
    have grown := insertNew_perm last.1 last.2 (ofList front)
    rw [ofList_concat, insert_of_not_mem last.2 absent]
    exact (grown.trans ((ih apart).cons last)).trans (List.perm_append_singleton last front).symm

/-- Fields that are put in list by list are put in pair by pair. -/
theorem overlays_foldl_merge (layers : List (Fields α)) :
    Overlays layers.flatten (layers.foldl merge []) := by
  have flat : layers.foldl merge [] = ofList layers.flatten := by
    rw [ofList, merge, List.foldl_flatten]
    rfl
  exact flat ▸ overlays_ofList layers.flatten

/-- A new name that stands before no other one is put at the end. -/
theorem insertNew_eq_append {fields : Fields α} {name : String} {value : α}
    (none : ∀ old ∈ fields.map Prod.fst, ¬standsBefore name old) :
    fields.insertNew name value = fields ++ [(name, value)] := by
  induction fields with
  | nil => rfl
  | cons field rest ih =>
    obtain ⟨old, oldValue⟩ := field
    rw [insertNew, if_neg (none old List.mem_cons_self),
      ih fun later mem => none later (List.mem_cons_of_mem _ mem), List.cons_append]

/-- Fields that are apart and in order are left as they are when they are put in into nothing. -/
theorem Overlays.merge_nil {pairs : List (String × α)} {fields : Fields α}
    (overlays : Overlays pairs fields) : merge [] fields = fields := by
  obtain ⟨-, distinct, ordered⟩ := overlays
  change ofList fields = fields
  induction fields using List.reverseRecOn with
  | nil => rfl
  | append_singleton front last ih =>
    rw [List.map_append, List.map_cons, List.map_nil] at distinct ordered
    obtain ⟨apart, -, fresh⟩ := List.nodup_append.mp distinct
    obtain ⟨inOrder, -, precede⟩ := List.pairwise_append.mp ordered
    have absent : last.1 ∉ front.map Prod.fst :=
      fun mem => fresh last.1 mem last.1 List.mem_cons_self rfl
    rw [ofList_concat, ih apart inOrder, insert_of_not_mem last.2 absent, insertNew_eq_append]
    exact fun old mem => (precede old mem last.1 List.mem_cons_self).not_standsBefore

/-! ## Fields left out and values changed -/

/-- Other names than the one that is left out have their values. -/
theorem get?_erase (fields : Fields α) {name other : String} (differ : other ≠ name) :
    (fields.erase name).get? other = fields.get? other := by
  induction fields with
  | nil => rfl
  | cons field rest ih =>
    obtain ⟨old, value⟩ := field
    rw [erase] at ih
    by_cases gone : old = name
    · rw [erase, List.filter_cons_of_neg (by simpa using gone), ih, get?_cons,
        if_neg (gone ▸ differ)]
    · rw [erase, List.filter_cons_of_pos (by simpa using gone), get?_cons, get?_cons, ih]

/-- A name that is not there can be left out. -/
theorem erase_of_not_mem {fields : Fields α} {name : String}
    (absent : name ∉ fields.map Prod.fst) : fields.erase name = fields := by
  unfold erase
  apply List.filter_eq_self.mpr
  intro field mem
  rw [bne_iff_ne]
  rintro rfl
  exact absent (List.mem_map_of_mem mem)

/-- The names that are kept, in their order. -/
theorem names_erase (fields : Fields α) (name : String) :
    (fields.erase name).map Prod.fst = (fields.map Prod.fst).filter (· ≠ name) := by
  rw [List.filter_map, erase]
  congr 1
  refine List.filter_congr fun field _ => ?_
  simp [bne, Bool.beq_eq_decide_eq]

/-- A value that is found after all are changed is the change of the one that was found before. -/
theorem get?_mapValues (f : α → β) (fields : Fields α) (name : String) :
    (fields.mapValues f).get? name = (fields.get? name).map f := by
  induction fields with
  | nil => rfl
  | cons field rest ih =>
    obtain ⟨old, value⟩ := field
    rw [mapValues] at ih
    rw [mapValues, List.map_cons, get?_cons, get?_cons, ih]
    split <;> rfl

/-- Changing values leaves the names alone. -/
theorem names_mapValues (f : α → β) (fields : Fields α) :
    (fields.mapValues f).map Prod.fst = fields.map Prod.fst := by
  rw [mapValues, List.map_map]
  rfl

/-! ## The same fields from other pairs -/

/-- The name that is left out has no value. -/
theorem get?_erase_self (fields : Fields α) (name : String) : (fields.erase name).get? name = none := by
  have gone : name ∉ (fields.erase name).map Prod.fst := by
    rw [names_erase]
    simp
  simpa using mt mem_names_iff.mpr gone

/-- What others have for a name counts, the last of them first, and else what was there. -/
theorem get?_merge (fields others : Fields α) (name : String) :
    (fields.merge others).get? name = (others.reverse.lookup name).or (fields.get? name) := by
  induction others using List.reverseRecOn with
  | nil => rfl
  | append_singleton front last ih =>
    have step : (fields.merge (front ++ [last])) = (fields.merge front).insert last.1 last.2 := by
      rw [merge, List.foldl_append]
      rfl
    rw [step, get?_insert, ih, List.reverse_append, List.reverse_singleton, List.singleton_append,
      ← get?, ← get?, get?_cons]
    split <;> rfl

/-- Where names are apart it does not matter from which end a name is looked up. -/
theorem lookup_reverse {fields : Fields α} (distinct : (fields.map Prod.fst).Nodup) (name : String) :
    fields.reverse.lookup name = fields.get? name := by
  have apart : (fields.reverse.map Prod.fst).Nodup := by
    rwa [List.map_reverse, List.nodup_reverse]
  ext value
  rw [← get?, get?_eq_some_iff_mem apart, get?_eq_some_iff_mem distinct, List.mem_reverse]

section

variable {names others : List String} {first second : String}

/-- One name precedes another in any order that keeps which of the two came first. -/
theorem Precedes.imp (precedes : Precedes names first second)
    (kept : arrayIndex? first = none → arrayIndex? second = none →
      names.idxOf first < names.idxOf second → others.idxOf first < others.idxOf second) :
    Precedes others first second := by
  unfold Precedes at *
  cases here : arrayIndex? first <;> cases there : arrayIndex? second <;>
    simp only [here, there] at precedes ⊢
  · exact kept here there precedes
  · exact precedes

/-- Two names do not precede each other. -/
theorem Precedes.asymm (precedes : Precedes names first second) : ¬Precedes names second first := by
  intro reversed
  have twice := precedes.trans reversed
  unfold Precedes at twice
  cases here : arrayIndex? first <;> simp [here] at twice

/-- Names that are kept when others are left out come in the same order. -/
theorem idxOf_filter_lt {keep : String → Bool} (keepsFirst : keep first) (keepsSecond : keep second)
    (before : names.idxOf first < names.idxOf second) :
    (names.filter keep).idxOf first < (names.filter keep).idxOf second := by
  induction names with
  | nil => simp at before
  | cons name rest ih =>
    by_cases isFirst : name = first
    · have differ : name ≠ second := by
        rintro rfl
        rw [isFirst] at before
        exact absurd before (Nat.lt_irrefl _)
      rw [List.filter_cons_of_pos (isFirst ▸ keepsFirst), isFirst, List.idxOf_cons_self,
        List.idxOf_cons_ne _ (isFirst ▸ differ)]
      exact Nat.succ_pos _
    · by_cases isSecond : name = second
      · rw [isSecond, List.idxOf_cons_self] at before
        exact absurd before (Nat.not_lt_zero _)
      · rw [List.idxOf_cons_ne _ isFirst, List.idxOf_cons_ne _ isSecond,
          Nat.succ_lt_succ_iff] at before
        rw [List.filter_cons]
        split
        · rw [List.idxOf_cons_ne _ isFirst, List.idxOf_cons_ne _ isSecond, Nat.succ_lt_succ_iff]
          exact ih before
        · exact ih before

/-- Of names in an order the one that stands earlier is in order before the other. -/
theorem rel_of_idxOf_lt {R : String → String → Prop} (ordered : names.Pairwise R)
    (there : second ∈ names) (before : names.idxOf first < names.idxOf second) : R first second := by
  have inside := List.idxOf_lt_length_of_mem there
  have stands := List.pairwise_iff_getElem.mp ordered _ _ (Nat.lt_trans before inside) inside before
  rwa [List.getElem_idxOf, List.getElem_idxOf] at stands

end

namespace Overlays

variable {pairs front behind : List (String × α)} {fields settled other : Fields α}

/-- Pairs give one outcome only. -/
theorem unique (here : Overlays pairs fields) (there : Overlays pairs other) : fields = other := by
  have same : fields.Perm other := by
    rw [List.perm_ext_iff_of_nodup (List.Nodup.of_map _ here.distinct) (List.Nodup.of_map _ there.distinct)]
    intro field
    rw [← get?_eq_some_iff_mem here.distinct, ← get?_eq_some_iff_mem there.distinct, here.last,
      there.last]
  refine same.eq_of_pairwise ?_ (List.pairwise_map.mp here.ordered)
    (List.pairwise_map.mp there.ordered)
  exact fun first second _ _ precedes follows => absurd follows precedes.asymm

/-- Without a name, pairs give the outcome without that name. -/
theorem erase (overlays : Overlays pairs fields) (name : String) :
    Overlays (Fields.erase pairs name) (fields.erase name) where
  last asked := by
    have reversed : (Fields.erase pairs name).reverse = Fields.erase pairs.reverse name :=
      List.filter_reverse.symm
    rw [reversed, ← get?]
    by_cases gone : asked = name
    · rw [gone, get?_erase_self, get?_erase_self]
    · rw [get?_erase _ gone, get?_erase _ gone, overlays.last, get?]
  distinct := by
    rw [names_erase]
    exact overlays.distinct.filter _
  ordered := by
    rw [names_erase, names_erase, List.pairwise_filter]
    refine overlays.ordered.imp fun precedes keepsFirst keepsSecond => ?_
    exact precedes.imp fun _ _ => idxOf_filter_lt keepsFirst keepsSecond

/-- Pairs can be replaced by what they give. -/
theorem settle (overlays : Overlays (front ++ settled) fields) (inner : Overlays behind settled) :
    Overlays (front ++ behind) fields where
  last name := by
    rw [overlays.last, List.reverse_append, List.reverse_append, List.lookup_append,
      List.lookup_append, lookup_reverse inner.distinct, inner.last]
  distinct := overlays.distinct
  ordered := by
    refine overlays.ordered.imp_of_mem fun {first second} _ there precedes => ?_
    have known := overlays.mem_iff.mp there
    rw [List.map_append] at precedes known ⊢
    refine precedes.imp fun noIndex noOther before => ?_
    rw [List.idxOf_append, List.idxOf_append] at before ⊢
    -- Only two names that are both new behind the front are looked up in what was replaced.
    by_cases old : first ∈ front.map Prod.fst <;> by_cases older : second ∈ front.map Prod.fst <;>
      simp only [old, older, if_true, if_false] at before ⊢
    · exact before
    · exact Nat.lt_add_left _ (List.idxOf_lt_length_of_mem old)
    · have inside := List.idxOf_lt_length_of_mem older
      omega
    · have new := (List.mem_append.mp known).resolve_left older
      have inner := rel_of_idxOf_lt inner.ordered new (Nat.lt_of_add_lt_add_right before)
      simp only [Precedes, noIndex, noOther] at inner
      exact Nat.add_lt_add_right inner _

end Overlays

end Fields

end LinkScript
