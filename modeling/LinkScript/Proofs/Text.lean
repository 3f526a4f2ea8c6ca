import LinkScript.Text
import Mathlib.Data.List.TakeWhile
import Mathlib.Data.List.Lex
import Mathlib.Data.List.Perm.Basic

/-!
# Trimming, cutting and sorting texts

* Trimming takes off the blank characters at both ends and nothing else.  Blanks that are put in
  front of a text or behind it make no difference (`trim_gap_append`, `trim_append_gap`), and
  neither does taking off some of them before (`trim_dropWhile`, `trim_trimRight`).  Where a
  character that is not blank stands inside, each end is trimmed on its own (`trim_append_cons`).
* The parts of a text between separators have no separator in them, and cutting is undone by
  joining: parts without a separator, joined with one between them, are cut into those parts again.
  Any two texts with a separator between them are cut each on its own (`splitAt_append_cons`).  A cut
  at the first separator finds it where none stands before, and nothing where there is none.
* Texts are sorted by their UTF-16 units, which tell what the text is (`units_injective`), so that
  two texts are never level in that order.  In an `Increasing` list each text comes strictly before
  those behind it: such a list is determined by what is in it (`Increasing.eq_of_mem_iff`), and
  sorting what is left of a list without its repetitions makes one (`increasing_sort_eraseDups`).
-/

namespace LinkScript.Text

section

/-- Whether all characters of a text are blank. -/
def IsGap (gap : List Char) : Prop := ∀ char ∈ gap, isBlank char = true

instance (gap : List Char) : Decidable (IsGap gap) :=
  decidable_of_iff (gap.all isBlank = true) List.all_eq_true

variable {text gap before behind : List Char} {char : Char}

/-! ## Blanks at the ends -/

/-- Blanks at the end are taken off. -/
theorem trimRight_append_gap (blank : IsGap gap) : trimRight (text ++ gap) = trimRight text := by
  have reversed : ∀ char ∈ gap.reverse, isBlank char = true := by
    intro char mem
    exact blank char (List.mem_reverse.mp mem)
  unfold trimRight
  rw [List.reverse_append, List.dropWhile_append_of_pos reversed]

/-- What is taken off at the end is blank. -/
theorem exists_gap_trimRight (text : List Char) : ∃ gap, IsGap gap ∧ text = trimRight text ++ gap := by
  refine ⟨(text.reverse.takeWhile isBlank).reverse, ?_, ?_⟩
  · intro char mem
    exact List.all_eq_true.mp List.all_takeWhile char (List.mem_reverse.mp mem)
  · unfold trimRight
    rw [← List.reverse_append, List.takeWhile_append_dropWhile, List.reverse_reverse]

/-- Blanks in front make no difference. -/
theorem trim_gap_append (blank : IsGap gap) : trim (gap ++ text) = trim text := by
  unfold trim
  rw [List.dropWhile_append_of_pos blank]

/-- Blanks at the end make no difference. -/
theorem trim_append_gap (blank : IsGap gap) : trim (text ++ gap) = trim text := by
  unfold trim
  rw [List.dropWhile_append]
  split
  · next empty =>
    have nothing : gap.dropWhile isBlank = [] := List.dropWhile_eq_nil_iff.mpr blank
    rw [nothing, List.isEmpty_iff.mp empty]
  · exact trimRight_append_gap blank

/-- A text that is trimmed in front before is trimmed to the same. -/
theorem trim_dropWhile (text : List Char) : trim (text.dropWhile isBlank) = trim text := by
  have blank : IsGap (text.takeWhile isBlank) := List.all_eq_true.mp List.all_takeWhile
  have whole := List.takeWhile_append_dropWhile (p := isBlank) (l := text)
  calc trim (text.dropWhile isBlank)
      = trim (text.takeWhile isBlank ++ text.dropWhile isBlank) := (trim_gap_append blank).symm
    _ = trim text := by rw [whole]

/-- A text that is trimmed at the end before is trimmed to the same. -/
theorem trim_trimRight (text : List Char) : trim (trimRight text) = trim text := by
  obtain ⟨gap, blank, whole⟩ := exists_gap_trimRight text
  calc trim (trimRight text) = trim (trimRight text ++ gap) := (trim_append_gap blank).symm
    _ = trim text := by rw [← whole]

/-! ## A character that is not blank -/

/-- Only what stands behind a character that is not blank is trimmed at the end. -/
theorem trimRight_append_cons (other : isBlank char = false) :
    trimRight (before ++ char :: behind) = before ++ char :: trimRight behind := by
  unfold trimRight
  rw [List.reverse_append, List.reverse_cons, List.append_assoc, List.dropWhile_append]
  -- Read from the end, trimming stops at the character if all behind it is blank, or before.
  split
  · next empty =>
    rw [List.isEmpty_iff.mp empty, List.singleton_append,
      List.dropWhile_cons_of_neg (by simp [other])]
    simp
  · simp

/-- Where a character that is not blank stands inside, each end is trimmed on its own. -/
theorem trim_append_cons (other : isBlank char = false) :
    trim (before ++ char :: behind) = before.dropWhile isBlank ++ char :: trimRight behind := by
  have front : (before ++ char :: behind).dropWhile isBlank =
      before.dropWhile isBlank ++ char :: behind := by
    rw [List.dropWhile_append]
    split
    · next empty =>
      rw [List.isEmpty_iff.mp empty, List.nil_append,
        List.dropWhile_cons_of_neg (by simp [other])]
    · rfl
  rw [trim, front, trimRight_append_cons other]

/-- Nothing is trimmed in front of a character that is not blank. -/
theorem trimRight_cons (other : isBlank char = false) :
    trimRight (char :: behind) = char :: trimRight behind := by
  have front : trimRight ([] ++ char :: behind) = [] ++ char :: trimRight behind :=
    trimRight_append_cons other
  exact front

/-- A text whose first character is not blank is trimmed at its end alone. -/
theorem trim_cons (other : isBlank char = false) :
    trim (char :: behind) = char :: trimRight behind := by
  rw [trim, List.dropWhile_cons_of_neg (by simp [other]), trimRight_cons other]

/-- What is left begins with the first character that is not blank. -/
theorem head?_trim (text : List Char) : (trim text).head? = (text.dropWhile isBlank).head? := by
  unfold trim
  cases left : text.dropWhile isBlank with
  | nil => rfl
  | cons first rest =>
    have other : isBlank first = false := by
      have head := List.head?_dropWhile_not isBlank text
      simpa [left] using head
    rw [trimRight_cons other, List.head?_cons, List.head?_cons]

/-- All that is left of a text is of the text. -/
theorem mem_of_mem_trim (mem : char ∈ trim text) : char ∈ text := by
  obtain ⟨gap, -, whole⟩ := exists_gap_trimRight (text.dropWhile isBlank)
  have inside : char ∈ text.dropWhile isBlank := by
    rw [whole]
    exact List.mem_append_left gap mem
  exact (List.dropWhile_suffix isBlank).subset inside

end

/-! ## Cutting and joining -/

section

variable {separator : Char}

/-- There is always a part. -/
theorem splitAt_ne_nil (chars : List Char) : splitAt separator chars ≠ [] := by
  cases chars with
  | nil => simp [splitAt]
  | cons c rest =>
    rw [splitAt]
    split
    · simp
    · split <;> simp

/-- No part has a separator in it. -/
theorem not_mem_of_mem_splitAt {chars part : List Char} (mem : part ∈ splitAt separator chars) :
    separator ∉ part := by
  induction chars generalizing part with
  | nil => simp_all [splitAt]
  | cons c rest ih =>
    rw [splitAt] at mem
    split at mem
    · rcases List.mem_cons.mp mem with rfl | behind
      · simp
      · exact ih behind
    · next other =>
      cases parts : splitAt separator rest with
      | nil => exact absurd parts (splitAt_ne_nil rest)
      | cons first others =>
        rw [parts] at mem ih
        rcases List.mem_cons.mp mem with rfl | behind
        · have clean := ih List.mem_cons_self
          simp [Ne.symm other, clean]
        · exact ih (List.mem_cons_of_mem _ behind)

/-- A text without a separator is one part. -/
theorem splitAt_of_not_mem {part : List Char} (clean : separator ∉ part) :
    splitAt separator part = [part] := by
  induction part with
  | nil => rfl
  | cons c part ih =>
    obtain ⟨other, inside⟩ := List.ne_and_not_mem_of_not_mem_cons clean
    rw [splitAt, if_neg (Ne.symm other), ih inside]

/-- A separator cuts a text in two, and each half is cut on its own. -/
theorem splitAt_append_cons (front behind : List Char) :
    splitAt separator (front ++ separator :: behind) =
      splitAt separator front ++ splitAt separator behind := by
  induction front with
  | nil => simp [splitAt]
  | cons c front ih =>
    rw [List.cons_append, splitAt, splitAt, ih]
    split
    · rfl
    · cases parts : splitAt separator front with
      | nil => exact absurd parts (splitAt_ne_nil front)
      | cons first others => rfl

/-- A separator behind a part cuts it off. -/
theorem splitAt_append {part : List Char} (clean : separator ∉ part) (rest : List Char) :
    splitAt separator (part ++ separator :: rest) = part :: splitAt separator rest := by
  rw [splitAt_append_cons, splitAt_of_not_mem clean, List.singleton_append]

/-- **Parts that are joined are cut into the same parts**, if there are any. -/
theorem splitAt_intercalate {parts : List (List Char)} (some : parts ≠ [])
    (clean : ∀ part ∈ parts, separator ∉ part) :
    splitAt separator (List.intercalate [separator] parts) = parts := by
  induction parts with
  | nil => exact absurd rfl some
  | cons part parts ih =>
    have first := clean part List.mem_cons_self
    cases parts with
    | nil => simpa using splitAt_of_not_mem first
    | cons second parts =>
      have others := ih (by simp) fun part mem => clean part (List.mem_cons_of_mem _ mem)
      rw [List.intercalate_cons_cons, List.append_assoc, List.singleton_append,
        splitAt_append first, others]

/-- The first separator is the one with none before it. -/
theorem cutFirst_append {before : List Char} (clean : separator ∉ before) (behind : List Char) :
    cutFirst separator (before ++ separator :: behind) = some (before, behind) := by
  induction before with
  | nil => simp [cutFirst]
  | cons c before ih =>
    obtain ⟨other, inside⟩ := List.ne_and_not_mem_of_not_mem_cons clean
    rw [List.cons_append, cutFirst, if_neg (Ne.symm other), ih inside, Option.map_some]

/-- There is no first separator where there is none. -/
theorem cutFirst_of_not_mem {chars : List Char} (clean : separator ∉ chars) :
    cutFirst separator chars = none := by
  induction chars with
  | nil => rfl
  | cons c chars ih =>
    obtain ⟨other, inside⟩ := List.ne_and_not_mem_of_not_mem_cons clean
    rw [cutFirst, if_neg (Ne.symm other), ih inside, Option.map_none]

/-- What a cut at the first separator gives. -/
theorem cutFirst_eq_some_iff {chars before behind : List Char} :
    cutFirst separator chars = some (before, behind) ↔
      chars = before ++ separator :: behind ∧ separator ∉ before := by
  constructor
  · intro cut
    by_cases there : separator ∈ chars
    · obtain ⟨front, back, rfl, clean⟩ := List.eq_append_cons_of_mem there
      rw [cutFirst_append clean] at cut
      cases cut
      exact ⟨rfl, clean⟩
    · rw [cutFirst_of_not_mem there] at cut
      cases cut
  · rintro ⟨rfl, clean⟩
    exact cutFirst_append clean behind

end

/-! ## The units of a text -/

/-- The units of a character can be told from what stands behind them, and from those of every
other character.  A pair begins with a unit from D800 on and below DC00, which no character has for
its only one. -/
theorem unitsOfChar_append {c d : Char} {behind after : List Nat}
    (eq : unitsOfChar c ++ behind = unitsOfChar d ++ after) : c = d ∧ behind = after := by
  have first : c.toNat < 0xD800 ∨ 0xDFFF < c.toNat ∧ c.toNat < 0x110000 := c.valid
  have second : d.toNat < 0xD800 ∨ 0xDFFF < d.toNat ∧ d.toNat < 0x110000 := d.valid
  simp only [unitsOfChar] at eq
  split at eq <;> split at eq <;>
    simp only [List.cons_append, List.nil_append, List.cons.injEq] at eq
  · exact ⟨Char.toNat_inj.mp eq.1, eq.2⟩
  · omega
  · omega
  · exact ⟨Char.toNat_inj.mp (by omega), eq.2.2⟩

/-- Every character has a unit. -/
theorem unitsOfChar_ne_nil (c : Char) : unitsOfChar c ≠ [] := by
  simp only [unitsOfChar]
  split <;> simp

/-- **The units of a text tell what the text is.** -/
theorem units_injective : Function.Injective units := by
  have chars {first second : List Char}
      (eq : first.flatMap unitsOfChar = second.flatMap unitsOfChar) : first = second := by
    induction first generalizing second with
    | nil => cases second <;> simp_all [unitsOfChar_ne_nil]
    | cons c first ih =>
      cases second with
      | nil => simp [unitsOfChar_ne_nil] at eq
      | cons d second =>
        rw [List.flatMap_cons, List.flatMap_cons] at eq
        obtain ⟨rfl, rest⟩ := unitsOfChar_append eq
        rw [ih rest]
  intro first second eq
  exact String.toList_injective (chars eq)

/-! ## Sorted lists -/

/-- A text does not come behind another when its units do not. -/
theorem not_precedes_iff {first second : String} :
    precedes second first = false ↔ units first ≤ units second := by
  rw [← not_lt]
  exact List.lex_eq_false_iff_ge ..

/-- Past U+FFFF the order is not the one by characters. -/
example : precedes "😀" "\uFF5E" = true ∧ '\uFF5E' < '😀' := by decide

/-- Each text of a list comes strictly before those behind it. -/
def Increasing (texts : List String) : Prop :=
  texts.Pairwise fun first second => units first < units second

/-- An increasing list has no repetitions. -/
theorem Increasing.nodup {texts : List String} (increasing : Increasing texts) : texts.Nodup := by
  apply List.Pairwise.imp _ increasing
  rintro first _ before rfl
  exact lt_irrefl _ before

/-- **An increasing list is determined by what is in it.** -/
theorem Increasing.eq_of_mem_iff {first second : List String} (increasing : Increasing first)
    (other : Increasing second) (same : ∀ text, text ∈ first ↔ text ∈ second) :
    first = second := by
  have perm : first.Perm second :=
    (List.perm_ext_iff_of_nodup increasing.nodup other.nodup).mpr same
  exact perm.eq_of_pairwise
    (fun _ _ _ _ before behind => absurd behind (lt_asymm before)) increasing other

/-- The texts of a sorted list are those of the list before. -/
theorem mem_sort {texts : List String} {text : String} : text ∈ sort texts ↔ text ∈ texts :=
  List.mem_mergeSort

/-- Without repetitions, sorting leaves no two texts level. -/
theorem increasing_sort {texts : List String} (nodup : texts.Nodup) : Increasing (sort texts) := by
  have weakly : (sort texts).Pairwise fun first second => (!precedes second first) = true := by
    apply List.pairwise_mergeSort
    · intro first second third before behind
      simp only [Bool.not_eq_true', not_precedes_iff] at *
      exact le_trans before behind
    · intro first second
      simpa only [Bool.or_eq_true, Bool.not_eq_true', not_precedes_iff] using le_total _ _
  have distinct : (sort texts).Nodup := (List.mergeSort_perm texts _).nodup_iff.mpr nodup
  refine (weakly.and distinct).imp fun ⟨before, different⟩ => ?_
  rw [Bool.not_eq_true', not_precedes_iff] at before
  by_contra behind
  exact different (units_injective (le_antisymm before (not_lt.mp behind)))

/-- A list without its repetitions has none. -/
theorem nodup_eraseDups {α : Type} [BEq α] [LawfulBEq α] (items : List α) :
    items.eraseDups.Nodup := by
  cases items with
  | nil => simp
  | cons item items =>
    rw [List.eraseDups_cons, List.nodup_cons, List.mem_eraseDups]
    exact ⟨by simp, nodup_eraseDups _⟩
termination_by items.length
decreasing_by exact Nat.lt_succ_of_le (List.length_filter_le ..)

/-- **Sorting without repetitions makes an increasing list.** -/
theorem increasing_sort_eraseDups (texts : List String) : Increasing (sort texts.eraseDups) :=
  increasing_sort (nodup_eraseDups texts)

/-- Sorting what is left without repetitions leaves nothing out and adds nothing. -/
theorem mem_sort_eraseDups {texts : List String} {text : String} :
    text ∈ sort texts.eraseDups ↔ text ∈ texts :=
  mem_sort.trans List.mem_eraseDups

/-- An increasing list is sorted. -/
theorem Increasing.sort_eraseDups {texts : List String} (increasing : Increasing texts) :
    sort texts.eraseDups = texts :=
  (increasing_sort_eraseDups texts).eq_of_mem_iff increasing fun _ => mem_sort_eraseDups

end LinkScript.Text
