import LinkScript.Proofs.Settings.EnvFile
import Mathlib.Data.List.Forall2

/-!
# Files of settings line by line

What a file of settings gives is a matter of its lines one by one, and of a line only what is
between the blanks at its ends counts.

* `About` says which name a line is about and what stands behind its equals sign, and `Unquotes`
  which value a text spells.  Together they are what a line sets (`assignment?_eq_some_iff`).
* `LastSets` is the value from the last line about a name, which is the value that is read
  (`get?_parse_eq_some_iff`).
* `parse_append`: the lines of one file behind those of another are put on top of them.
* `parse_breakWithReturns`: carriage returns in front of line feeds change no line but at its end.

`parse_by_lines` puts these together.
-/

namespace LinkScript.EnvFile

open Text

/-! ## What a line sets -/

/-- A line is about a name, with a text behind its first equals sign: it does not begin a comment,
and the name is what stands before the sign, without the blanks around it. -/
structure About (line : List Char) (name : String) (behind : List Char) : Prop where
  no_comment : (trim line).head? ≠ some '#'
  cut : ∃ before, trim line = before ++ '=' :: behind ∧ '=' ∉ before ∧ trim before = name.toList

/-- The value that a text spells: what stands between its quotation marks if it looks quoted, and
else the text itself. -/
inductive Unquotes : List Char → List Char → Prop where
  | quoted {mark : Char} (value : List Char) :
      mark = '"' ∨ mark = '\'' → Unquotes (mark :: (value ++ [mark])) value
  | bare {value : List Char} : ¬ IsQuoted value → Unquotes value value

/-- A line sets a name to a value: it is about the name, and the value is spelled behind the sign,
with blanks around it. -/
def Sets (line : List Char) (name value : String) : Prop :=
  ∃ behind, About line name behind ∧ Unquotes (trim behind) value.toList

section

variable {line : List Char} {name value : String}

/-- Every text spells exactly one value. -/
theorem unquotes_iff {text value : List Char} : Unquotes text value ↔ unquote text = value := by
  constructor
  · rintro (⟨value, isMark⟩ | bare)
    · exact unquote_of_marks isMark value
    · exact unquote_of_not_isQuoted bare
  · rintro rfl
    by_cases quoted : IsQuoted text
    · obtain ⟨mark, inside, isMark, rfl⟩ := quoted
      rw [unquote_of_marks isMark]
      exact .quoted inside isMark
    · rw [unquote_of_not_isQuoted quoted]
      exact .bare quoted

/-- The name and the value that a line is read to set are those that it sets. -/
theorem assignment?_eq_some_iff : assignment? line = some (name, value) ↔ Sets line name value := by
  unfold assignment?
  constructor
  · intro found
    dsimp only at found
    split at found
    · cases found
    · next other =>
      obtain ⟨⟨before, behind⟩, cut, same⟩ := Option.map_eq_some_iff.mp found
      obtain ⟨shape, clean⟩ := cutFirst_eq_some_iff.mp cut
      cases same
      exact ⟨behind, ⟨other, before, shape, clean, String.toList_ofList.symm⟩,
        unquotes_iff.mpr String.toList_ofList.symm⟩
  · rintro ⟨behind, ⟨other, before, shape, clean, named⟩, spelled⟩
    dsimp only
    rw [if_neg other, cutFirst_eq_some_iff.mpr ⟨shape, clean⟩, Option.map_some, named,
      unquotes_iff.mp spelled, String.ofList_toList, String.ofList_toList]

/-- The value that a line sets a name to, if it is about that name. -/
def given? (name : String) (line : List Char) : Option String :=
  (assignment? line).bind fun set => if name = set.1 then some set.2 else none

/-- A line gives a value for a name exactly if it sets the name to it. -/
theorem given?_eq_some_iff : given? name line = some value ↔ Sets line name value := by
  rw [← assignment?_eq_some_iff, given?, Option.bind_eq_some_iff]
  constructor
  · rintro ⟨set, found, given⟩
    obtain ⟨rfl, taken⟩ := Option.ite_none_right_eq_some.mp given
    rw [found, ← Option.some.inj taken]
  · intro found
    exact ⟨_, found, if_pos rfl⟩

/-- A line sets a name to some value exactly if it is about that name. -/
theorem given?_eq_none_iff : given? name line = none ↔ ∀ behind, ¬ About line name behind := by
  constructor
  · intro none behind about
    have set : given? name line = some (String.ofList (unquote (trim behind))) :=
      given?_eq_some_iff.mpr ⟨behind, about, unquotes_iff.mpr String.toList_ofList.symm⟩
    rw [none] at set
    cases set
  · intro none
    by_contra some
    obtain ⟨value, set⟩ := Option.ne_none_iff_exists'.mp some
    obtain ⟨behind, about, -⟩ := given?_eq_some_iff.mp set
    exact none behind about

end

/-! ## The last line about a name -/

/-- The value that the last line about a name sets it to. -/
def LastSets (lines : List (List Char)) (name value : String) : Prop :=
  ∃ before line after, lines = before ++ line :: after ∧ Sets line name value ∧
    ∀ later ∈ after, ∀ behind, ¬ About later name behind

section

variable {text name value : String}

/-- What is looked up among the pairs that lines give is looked up line by line. -/
theorem lookup_filterMap_assignment? (lines : List (List Char)) (name : String) :
    (lines.filterMap assignment?).lookup name = lines.findSome? (given? name) := by
  induction lines with
  | nil => rfl
  | cons line lines ih =>
    rw [List.findSome?_cons, given?]
    cases set : assignment? line with
    | none => rw [List.filterMap_cons_none set, ih, Option.bind_none]
    | some pair =>
      rw [List.filterMap_cons_some set, ← Fields.get?, Fields.get?_cons, Option.bind_some]
      split
      · rfl
      · exact ih

/-- The names and values that are put in, without the name that cannot be set. -/
theorem overlays_parse (text : String) :
    Fields.Overlays (Fields.erase (assignments text.toList) "__proto__") (parse text) :=
  (Fields.overlays_ofList _).erase "__proto__"

/-- A name is looked up from the last line on. -/
theorem get?_parse (settable : name ≠ "__proto__") :
    (parse text).get? name = (splitAt '\n' text.toList).reverse.findSome? (given? name) := by
  rw [parse, Fields.get?_erase _ settable, (Fields.overlays_ofList _).last, assignments,
    ← List.filterMap_reverse, lookup_filterMap_assignment?]

/-- The value that is read for a name is the one that the last line about it gives. -/
theorem get?_parse_eq_some_iff (settable : name ≠ "__proto__") :
    (parse text).get? name = some value ↔ LastSets (splitAt '\n' text.toList) name value := by
  rw [get?_parse settable, List.findSome?_eq_some_iff]
  constructor
  · rintro ⟨after, line, before, cut, set, none⟩
    refine ⟨before.reverse, line, after.reverse, ?_, given?_eq_some_iff.mp set, ?_⟩
    · rw [← List.reverse_inj, cut]
      simp
    · intro later mem
      exact given?_eq_none_iff.mp (none later (List.mem_reverse.mp mem))
  · rintro ⟨before, line, after, cut, set, none⟩
    refine ⟨after.reverse, line, before.reverse, ?_, given?_eq_some_iff.mpr set, ?_⟩
    · rw [cut]
      simp
    · intro later mem
      exact given?_eq_none_iff.mpr (none later (List.mem_reverse.mp mem))

/-- No value is read for a name exactly if no line is about it. -/
theorem get?_parse_eq_none_iff (settable : name ≠ "__proto__") :
    (parse text).get? name = none ↔
      ∀ line ∈ splitAt '\n' text.toList, ∀ behind, ¬ About line name behind := by
  simp only [get?_parse settable, List.findSome?_eq_none_iff, List.mem_reverse, given?_eq_none_iff]

end

/-! ## One file behind another -/

/-- The lines of two texts with a line feed between them are those of the first and the second. -/
theorem assignments_append (first second : List Char) :
    assignments (first ++ '\n' :: second) = assignments first ++ assignments second := by
  rw [assignments, splitAt_append_cons, List.filterMap_append]
  rfl

/-- **Two files that are joined are read as the second put in on top of the first.** -/
theorem parse_append (first second : String) :
    parse (first ++ "\n" ++ second) = (parse first).merge (parse second) := by
  have joined : (first ++ "\n" ++ second).toList = first.toList ++ '\n' :: second.toList := by
    simp [String.toList_append]
  have whole := overlays_parse (first ++ "\n" ++ second)
  rw [joined, assignments_append, Fields.erase, List.filter_append] at whole
  exact whole.unique (((overlays_parse first).append _).settle (overlays_parse second))

/-- Of two files that are joined the second wins. -/
theorem get?_parse_append (first second name : String) :
    (parse (first ++ "\n" ++ second)).get? name =
      ((parse second).get? name).or ((parse first).get? name) := by
  rw [parse_append, Fields.get?_merge, Fields.lookup_reverse (overlays_parse second).distinct]

/-! ## Carriage returns -/

/-- A text from a place on, with a carriage return in front of each line feed at a chosen place. -/
def breakWithReturns (chosen : Nat → Bool) : Nat → List Char → List Char
  | _, [] => []
  | place, c :: rest =>
    (if c = '\n' ∧ chosen place then ['\r', c] else [c]) ++ breakWithReturns chosen (place + 1) rest

/-- Whether a line is another one, but for a carriage return at its end. -/
def SameButReturn (line other : List Char) : Prop := line = other ∨ line = other ++ ['\r']

/-- Blanks at the end of a line make no difference. -/
theorem assignment?_append_gap {gap : List Char} (blank : IsGap gap) (line : List Char) :
    assignment? (line ++ gap) = assignment? line := by
  unfold assignment?
  rw [trim_append_gap blank]

/-- A carriage return at the end of a line makes no difference. -/
theorem SameButReturn.assignment?_eq {line other : List Char} (same : SameButReturn line other) :
    assignment? line = assignment? other := by
  rcases same with rfl | rfl
  · rfl
  · exact assignment?_append_gap (by decide) other

/-- With returns in front of line feeds the lines are the same, but for returns at their ends. -/
theorem splitAt_breakWithReturns (chosen : Nat → Bool) (place : Nat) (text : List Char) :
    List.Forall₂ SameButReturn (splitAt '\n' (breakWithReturns chosen place text))
      (splitAt '\n' text) := by
  induction text generalizing place with
  | nil => exact .cons (.inl rfl) .nil
  | cons c text ih =>
    have rest := ih (place + 1)
    rw [breakWithReturns]
    by_cases feed : c = '\n'
    · subst feed
      by_cases returned : chosen place
      · rw [if_pos ⟨rfl, returned⟩]
        exact .cons (.inr rfl) rest
      · rw [if_neg fun both => returned both.2]
        exact .cons (.inl rfl) rest
    · rw [if_neg fun both => feed both.1, List.singleton_append, splitAt, splitAt, if_neg feed,
        if_neg feed]
      -- The character begins the first line of both.
      revert rest
      generalize splitAt '\n' (breakWithReturns chosen (place + 1) text) = lines
      generalize splitAt '\n' text = others
      rintro (_ | ⟨rfl | rfl, behind⟩)
      · exact .cons (.inl rfl) .nil
      · exact .cons (.inl rfl) behind
      · exact .cons (.inr rfl) behind

/-- Lines that are the same but for returns at their ends set the same. -/
theorem filterMap_assignment?_congr {lines others : List (List Char)}
    (same : List.Forall₂ SameButReturn lines others) :
    lines.filterMap assignment? = others.filterMap assignment? := by
  induction same with
  | nil => rfl
  | cons first _ ih => rw [List.filterMap_cons, List.filterMap_cons, first.assignment?_eq, ih]

/-- **Carriage returns in front of line feeds make no difference.** -/
theorem parse_breakWithReturns (chosen : Nat → Bool) (text : String) :
    parse (String.ofList (breakWithReturns chosen 0 text.toList)) = parse text := by
  have same : assignments (breakWithReturns chosen 0 text.toList) = assignments text.toList :=
    filterMap_assignment?_congr (splitAt_breakWithReturns chosen 0 text.toList)
  rw [parse, String.toList_ofList, same, parse]

/-! ## All lines -/

/-- **A file of settings is read line by line.**

* A file whose lines stand behind those of another is put in on top of it: the names that it sets
  have its values, and all others have those of the other file.
* A choice of line feeds can have carriage returns in front of them, and the same is read.
* A name that can be set has the value that the last line about it gives, and none exactly if no
  line is about it. -/
theorem parse_by_lines :
    (∀ first second : String,
      parse (first ++ "\n" ++ second) = (parse first).merge (parse second) ∧
      ∀ name, (parse (first ++ "\n" ++ second)).get? name =
        ((parse second).get? name).or ((parse first).get? name)) ∧
    (∀ (chosen : Nat → Bool) (text : String),
      parse (String.ofList (breakWithReturns chosen 0 text.toList)) = parse text) ∧
    ∀ text name : String, name ≠ "__proto__" →
      (∀ value, (parse text).get? name = some value ↔
        LastSets (splitAt '\n' text.toList) name value) ∧
      ((parse text).get? name = none ↔
        ∀ line ∈ splitAt '\n' text.toList, ∀ behind, ¬ About line name behind) := by
  refine ⟨fun first second => ⟨parse_append first second, get?_parse_append first second⟩,
    parse_breakWithReturns, fun text name settable => ⟨?_, get?_parse_eq_none_iff settable⟩⟩
  exact fun value => get?_parse_eq_some_iff settable

/-- A line in a comment and a later line about another name say nothing about a name, whose last
line has a second equals sign in its value and blanks at its ends. -/
theorem parse_by_lines_reset :
    let text := "A = '1'\n# A=2\n\tA= x=y \r\nAB=3\nB"
    "A" ≠ "__proto__" ∧ "B" ≠ "__proto__" ∧
      (parse text).get? "A" = some "x=y" ∧ LastSets (splitAt '\n' text.toList) "A" "x=y" ∧
      (parse text).get? "B" = none ∧
      ∀ line ∈ splitAt '\n' text.toList, ∀ behind, ¬ About line "B" behind := by
  intro text
  have set : (parse text).get? "A" = some "x=y" := by decide +kernel
  have unset : (parse text).get? "B" = none := by decide +kernel
  obtain ⟨-, -, byName⟩ := parse_by_lines
  refine ⟨by decide, by decide, set, ?_, unset, ?_⟩
  · exact ((byName text "A" (by decide)).1 "x=y").mp set
  · exact (byName text "B" (by decide)).2.mp unset

end LinkScript.EnvFile
