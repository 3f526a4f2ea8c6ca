import LinkScript.Proofs.Fields
import LinkScript.Proofs.Text
import LinkScript.Settings

/-!
# Files of settings that are written read back

A name and a value can be written on a line in many ways: with blanks around both, with the value in
quotation marks of either kind, or without any where it does not look quoted by itself.  Reading the
file gives all names with their values again, whatever stands on the lines in between that set
nothing.

* `Setting` is a name and a value that can be written.  `Spelling` is how the value is written,
  `Line` a line that sets it, and `Idle` a line that sets nothing.
* `assignment?_append`: what a line sets by its first equals sign.  The name and the value are
  trimmed by themselves, so that trimming the whole line only matters to what it begins with.
* `assignment?_of_line` and `assignment?_of_idle`: what the two kinds of lines set.
* `parse_of_lines` is the way back from the text to the names and values.
-/

namespace LinkScript.EnvFile

open Text

/-! ## What is written -/

/-- A name and a value that can be written on a line. -/
structure Setting where
  name : String
  value : String
  /-- Nothing is trimmed off the name. -/
  trimmed : trim name.toList = name.toList := by decide
  /-- The name does not end before the equals sign. -/
  no_sign : '=' ∉ name.toList := by decide
  /-- The name does not begin a comment. -/
  no_comment : name.toList.head? ≠ some '#' := by decide
  /-- Both fit on a line. -/
  one_line : '\n' ∉ name.toList ∧ '\n' ∉ value.toList := by decide
  /-- The name can be set. -/
  settable : name ≠ "__proto__" := by decide

/-- A setting as it is read. -/
def Setting.pair (setting : Setting) : String × String := (setting.name, setting.value)

/-! ## How it is written -/

/-- Whether a value looks quoted: it begins and ends with a quotation mark, twice the same one. -/
def IsQuoted (value : List Char) : Prop :=
  ∃ mark inside, (mark = '"' ∨ mark = '\'') ∧ value = mark :: (inside ++ [mark])

/-- How a value may be written: between quotation marks, or as it is where it neither has blanks at
an end nor looks quoted. -/
inductive Spelling : List Char → List Char → Prop where
  | double (value : List Char) : Spelling value ('"' :: (value ++ ['"']))
  | single (value : List Char) : Spelling value ('\'' :: (value ++ ['\'']))
  | bare {value : List Char} : trim value = value → ¬ IsQuoted value → Spelling value value

/-- Blanks on a line. -/
def Gap (gap : List Char) : Prop := IsGap gap ∧ '\n' ∉ gap

instance (gap : List Char) : Decidable (Gap gap) :=
  inferInstanceAs (Decidable (IsGap gap ∧ '\n' ∉ gap))

/-- A line that sets a name to a value, with blanks before and behind both. -/
inductive Line (setting : Setting) : List Char → Prop where
  | mk (lead beforeSign behindSign trail : List Char) {spelling : List Char} :
      Gap lead → Gap beforeSign → Gap behindSign → Gap trail →
      Spelling setting.value.toList spelling →
      Line setting (lead ++ setting.name.toList ++ beforeSign ++
        '=' :: (behindSign ++ spelling ++ trail))

/-- A line that sets nothing: one without an equals sign, such as a blank one, or a comment. -/
inductive Idle : List Char → Prop where
  | noSign {line : List Char} : '=' ∉ line → '\n' ∉ line → Idle line
  | comment (lead text : List Char) : Gap lead → '\n' ∉ text → Idle (lead ++ '#' :: text)

/-- Lines with settings on some of them. -/
inductive Lines : List Setting → List (List Char) → Prop where
  | nil : Lines [] []
  | setting {setting : Setting} {line : List Char} {settings : List Setting}
      {lines : List (List Char)} : Line setting line → Lines settings lines →
      Lines (setting :: settings) (line :: lines)
  | idle {line : List Char} {settings : List Setting} {lines : List (List Char)} : Idle line →
      Lines settings lines → Lines settings (line :: lines)

/-! ## Values -/

/-- Quotation marks around a value are taken off. -/
theorem unquote_of_marks {mark : Char} (isMark : mark = '"' ∨ mark = '\'') (value : List Char) :
    unquote (mark :: (value ++ [mark])) = value := by
  simp [unquote, isMark]

/-- Of a value that does not look quoted nothing is taken off. -/
theorem unquote_of_not_isQuoted {value : List Char} (bare : ¬ IsQuoted value) :
    unquote value = value := by
  unfold unquote
  split
  · next first rest =>
    split
    · next marks =>
      obtain ⟨isMark, -, last⟩ := marks
      obtain ⟨inside, rfl⟩ := List.getLast?_eq_some_iff.mp last
      exact absurd ⟨first, inside, isMark, rfl⟩ bare
    · rfl
  · rfl

/-- A quotation mark is not blank. -/
theorem isBlank_of_mark {mark : Char} (isMark : mark = '"' ∨ mark = '\'') : isBlank mark = false := by
  rcases isMark with rfl | rfl <;> rfl

/-- Nothing is trimmed off between quotation marks. -/
theorem trim_of_marks {mark : Char} (isMark : mark = '"' ∨ mark = '\'') (value : List Char) :
    trim (mark :: (value ++ [mark])) = mark :: (value ++ [mark]) := by
  have other := isBlank_of_mark isMark
  rw [trim_cons other, trimRight_append_cons other]
  rfl

namespace Spelling

variable {value spelling : List Char}

/-- A value is read off its spelling. -/
theorem unquote_trim (spelled : Spelling value spelling) : unquote (trim spelling) = value := by
  cases spelled with
  | double => rw [trim_of_marks (Or.inl rfl), unquote_of_marks (Or.inl rfl)]
  | single => rw [trim_of_marks (Or.inr rfl), unquote_of_marks (Or.inr rfl)]
  | bare trimmed bare => rw [trimmed, unquote_of_not_isQuoted bare]

/-- The spelling of a value on one line is on one line. -/
theorem one_line (spelled : Spelling value spelling) (clean : '\n' ∉ value) : '\n' ∉ spelling := by
  cases spelled with
  | double => simpa using clean
  | single => simpa using clean
  | bare _ _ => exact clean

end Spelling

/-! ## Lines -/

/-- What a line sets by its first equals sign, unless it is a comment. -/
theorem assignment?_append {before : List Char} (clean : '=' ∉ before) (behind : List Char) :
    assignment? (before ++ '=' :: behind) =
      if (trim before).head? = some '#' then none
      else some (String.ofList (trim before), String.ofList (unquote (trim behind))) := by
  -- The sign is left in the line, so the line begins as the name does, or with the sign.
  have first : (before.dropWhile isBlank ++ '=' :: trimRight behind).head? = some '#' ↔
      (trim before).head? = some '#' := by
    rw [head?_trim]
    cases before.dropWhile isBlank <;> simp
  have inside : '=' ∉ before.dropWhile isBlank :=
    fun mem => clean ((List.dropWhile_suffix isBlank).subset mem)
  unfold assignment?
  dsimp only
  rw [trim_append_cons (by rfl)]
  simp only [first]
  rw [cutFirst_append inside, Option.map_some, trim_dropWhile, trim_trimRight]

/-- The characters of blanks are not those that a line is read by. -/
theorem not_mem_of_isGap {gap : List Char} (blank : IsGap gap) {char : Char}
    (other : isBlank char = false) : char ∉ gap := by
  intro mem
  rw [blank char mem] at other
  contradiction

/-- A written setting is what its line sets. -/
theorem assignment?_of_line {setting : Setting} {line : List Char} (written : Line setting line) :
    assignment? line = some setting.pair := by
  obtain ⟨lead, beforeSign, behindSign, trail, leadGap, beforeGap, behindGap, trailGap, spelled⟩ :=
    written
  next spelling =>
  have name : trim (lead ++ setting.name.toList ++ beforeSign) = setting.name.toList := by
    rw [trim_append_gap beforeGap.1, trim_gap_append leadGap.1, setting.trimmed]
  have value : unquote (trim (behindSign ++ spelling ++ trail)) = setting.value.toList := by
    rw [trim_append_gap trailGap.1, trim_gap_append behindGap.1, spelled.unquote_trim]
  have clean : '=' ∉ lead ++ setting.name.toList ++ beforeSign := by
    simp only [List.mem_append, not_or]
    exact ⟨⟨not_mem_of_isGap leadGap.1 (by rfl), setting.no_sign⟩,
      not_mem_of_isGap beforeGap.1 (by rfl)⟩
  rw [assignment?_append clean, name, value, if_neg setting.no_comment, String.ofList_toList,
    String.ofList_toList]
  rfl

/-- A line that sets nothing is passed over. -/
theorem assignment?_of_idle {line : List Char} (idle : Idle line) : assignment? line = none := by
  unfold assignment?
  dsimp only
  split
  · rfl
  · next other =>
    cases idle with
    | noSign clean =>
      have none : '=' ∉ trim line := fun mem => clean (mem_of_mem_trim mem)
      rw [cutFirst_of_not_mem none, Option.map_none]
    | comment lead text blank =>
      rw [trim_gap_append blank.1, trim_cons (by rfl)] at other
      contradiction

/-- A line that sets a name has no line feed in it. -/
theorem Line.one_line {setting : Setting} {line : List Char} (written : Line setting line) :
    '\n' ∉ line := by
  obtain ⟨lead, beforeSign, behindSign, trail, leadGap, beforeGap, behindGap, trailGap, spelled⟩ :=
    written
  have inside := spelled.one_line setting.one_line.2
  simp [leadGap.2, beforeGap.2, behindGap.2, trailGap.2, setting.one_line.1, inside]

/-- A line that sets nothing has no line feed in it. -/
theorem Idle.one_line {line : List Char} (idle : Idle line) : '\n' ∉ line := by
  cases idle with
  | noSign _ clean => exact clean
  | comment lead text blank clean => simp [blank.2, clean]

/-! ## Files -/

namespace Lines

variable {settings : List Setting} {lines : List (List Char)}

/-- No line has a line feed in it. -/
theorem one_line (written : Lines settings lines) : ∀ line ∈ lines, '\n' ∉ line := by
  induction written with
  | nil => simp
  | setting line _ ih => exact List.forall_mem_cons.mpr ⟨line.one_line, ih⟩
  | idle line _ ih => exact List.forall_mem_cons.mpr ⟨line.one_line, ih⟩

/-- The lines set what is written on them, in order. -/
theorem filterMap_assignment? (written : Lines settings lines) :
    lines.filterMap assignment? = settings.map Setting.pair := by
  induction written with
  | nil => rfl
  | setting line _ ih =>
    rw [List.filterMap_cons_some (assignment?_of_line line), ih, List.map_cons]
  | idle line _ ih => rw [List.filterMap_cons_none (assignment?_of_idle line), ih]

/-- A text of these lines sets what is written on them, also when it has none. -/
theorem assignments_intercalate (written : Lines settings lines) :
    assignments (List.intercalate ['\n'] lines) = settings.map Setting.pair := by
  rw [assignments]
  -- No lines at all are written as an empty text, which is cut into one empty line.
  by_cases some : lines = []
  · subst some
    cases written
    rfl
  · rw [splitAt_intercalate some written.one_line, written.filterMap_assignment?]

end Lines

/-- A text of these lines is read as what is written on them, put in one after another. -/
theorem Lines.parse_eq {settings : List Setting} {lines : List (List Char)}
    (written : Lines settings lines) {text : String}
    (joined : text.toList = List.intercalate ['\n'] lines) :
    parse text = Fields.ofList (settings.map Setting.pair) := by
  have absent : "__proto__" ∉ (Fields.ofList (settings.map Setting.pair)).map Prod.fst := by
    rw [(Fields.overlays_ofList _).mem_iff, List.map_map, List.mem_map]
    rintro ⟨setting, -, name⟩
    exact setting.settable name
  rw [parse, joined, written.assignments_intercalate, Fields.erase_of_not_mem absent]

/-- **Settings that are written are read back**: from lines that set different names to values, with
any lines that set nothing in between, exactly these names are read with exactly these values. -/
theorem parse_of_lines {settings : List Setting} {lines : List (List Char)} {text : String}
    (distinct : (settings.map Setting.name).Nodup) (written : Lines settings lines)
    (joined : text.toList = List.intercalate ['\n'] lines) :
    (parse text).Perm (settings.map Setting.pair) ∧
      ∀ name value, (parse text).get? name = some value ↔
        ∃ setting ∈ settings, setting.name = name ∧ setting.value = value := by
  have names : (settings.map Setting.pair).map Prod.fst = settings.map Setting.name := by
    rw [List.map_map]
    rfl
  have kept : (parse text).Perm (settings.map Setting.pair) := by
    rw [written.parse_eq joined]
    apply Fields.ofList_perm
    rwa [names]
  refine ⟨kept, ?_⟩
  intro name value
  have apart : ((parse text).map Prod.fst).Nodup := by
    rw [(kept.map Prod.fst).nodup_iff, names]
    exact distinct
  rw [Fields.get?_eq_some_iff_mem apart, kept.mem_iff, List.mem_map]
  simp only [Setting.pair, Prod.mk.injEq]

/-- A value with blanks at both ends, an equals sign and a number sign. -/
def paddedSetting : Setting := { name := "PADDED", value := "  a = b # c  " }

/-- A quotation mark for a name without characters. -/
def namelessSetting : Setting := { name := "", value := "'" }

/-- A value that has quotation marks of its own. -/
def quotedSetting : Setting := { name := "QUOTED VALUE", value := "\"inside\"" }

/-- Lines that set these names, with a comment, a line without a sign and an empty one between. -/
def assortedLines : List (List Char) :=
  ["# PADDED=no".toList, "\tPADDED =\u00a0\"  a = b # c  \"\r".toList, "nothing here".toList,
    "='".toList, [], "QUOTED VALUE='\"inside\"' ".toList]

/-- Three names are set, with blanks and quotation marks around their values. -/
theorem parse_of_lines_assorted :
    ([paddedSetting, namelessSetting, quotedSetting].map Setting.name).Nodup ∧
    Lines [paddedSetting, namelessSetting, quotedSetting] assortedLines ∧
    (parse (String.ofList (List.intercalate ['\n'] assortedLines))).Perm
      [("PADDED", "  a = b # c  "), ("", "'"), ("QUOTED VALUE", "\"inside\"")] := by
  have distinct : ([paddedSetting, namelessSetting, quotedSetting].map Setting.name).Nodup := by
    decide
  have unquoted : ¬ IsQuoted namelessSetting.value.toList := by
    rintro ⟨mark, inside, -, looks⟩
    have long := congrArg List.length looks
    simp [namelessSetting] at long
  have empty : Gap [] := by decide
  have written : Lines [paddedSetting, namelessSetting, quotedSetting] assortedLines := by
    apply Lines.idle (.comment [] " PADDED=no".toList (by decide) (by decide))
    apply Lines.setting (.mk "\t".toList " ".toList "\u00a0".toList "\r".toList (by decide)
      (by decide) (by decide) (by decide) (.double _))
    apply Lines.idle (.noSign (by decide) (by decide))
    apply Lines.setting (.mk [] [] [] [] empty empty empty empty (.bare rfl unquoted))
    apply Lines.idle (.noSign (by decide) (by decide))
    apply Lines.setting (.mk [] [] [] " ".toList empty empty empty (by decide) (.single _))
    exact .nil
  exact ⟨distinct, written, (parse_of_lines distinct written String.toList_ofList).1⟩

end LinkScript.EnvFile
