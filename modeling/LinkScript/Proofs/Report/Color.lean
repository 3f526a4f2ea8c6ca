import LinkScript.Proofs.Json.Characters
import LinkScript.Report
import Mathlib.Data.List.Forall2

/-!
# Colour is decoration

What is printed in colour is what is printed without it, with colour codes in between.

* `Color.Painted` says of two texts that the first is the second with codes put into it, and
  `Color.strip_of_painted` that the second is then what is left without the codes.
* `Color.painted_wrap`: so it is with a text in a colour, however its lines are broken.
* `Decorates` says the same of strings, and is kept by putting texts together and by lines.
* `checkLines_decorates` and `scriptLines_decorates`: the lines of the reports for people.
* `strip_report` puts the reports together.  It asks nothing of the texts in reports for programs,
  where the character that begins a code is never printed as it is.
-/

namespace LinkScript.Report

namespace Color

/-! ## Codes in a text -/

/-- Text with colour codes in it, over the text without them. -/
inductive Painted : List Char → List Char → Prop where
  | nil : Painted [] []
  | char {c : Char} {colored text : List Char} :
      c ≠ escape → Painted colored text → Painted (c :: colored) (c :: text)
  | code {digits colored text : List Char} :
      (∀ c ∈ digits, c.isDigit) → Painted colored text →
      Painted (Color.code digits ++ colored) text

/-- A text without the character that begins a code has no codes in it. -/
theorem Painted.refl {text : List Char} (clean : escape ∉ text) : Painted text text := by
  induction text with
  | nil => exact .nil
  | cons c text ih =>
    rw [List.mem_cons, not_or] at clean
    exact .char (Ne.symm clean.1) (ih clean.2)

/-- Texts with codes in them are together one with the codes of both. -/
theorem Painted.append {colored text colored' text' : List Char} (front : Painted colored text)
    (behind : Painted colored' text') : Painted (colored ++ colored') (text ++ text') := by
  induction front with
  | nil => exact behind
  | char plain _ ih => exact .char plain ih
  | code isDigit _ ih =>
    rw [List.append_assoc]
    exact .code isDigit ih

/-! ## Taking codes away -/

/-- Behind digits and an `m` is what stands there. -/
theorem behindDigits?_append {digits : List Char} (isDigit : ∀ c ∈ digits, c.isDigit)
    (rest : List Char) : behindDigits? (digits ++ 'm' :: rest) = some rest := by
  induction digits with
  | nil => rfl
  | cons first digits ih =>
    rw [List.forall_mem_cons] at isDigit
    have inside : first ≠ 'm' := by
      rintro rfl
      exact absurd isDigit.1 (by decide)
    rw [List.cons_append, behindDigits?, if_neg inside, if_pos isDigit.1, ih isDigit.2]

/-- A code is taken away. -/
theorem strip_code {digits : List Char} (isDigit : ∀ c ∈ digits, c.isDigit) (rest : List Char) :
    strip (code digits ++ rest) = strip rest := by
  have behind : behindCode? (code digits ++ rest) = some rest := by
    simpa [code, behindCode?, escape] using behindDigits?_append isDigit rest
  rw [strip]
  split
  · next found => rw [Option.some.inj (found.symm.trans behind)]
  · next none => exact absurd (none.symm.trans behind) (by simp)

/-- Any other character is kept. -/
theorem strip_cons {c : Char} (plain : c ≠ escape) (rest : List Char) :
    strip (c :: rest) = c :: strip rest := by
  have noCode : behindCode? (c :: rest) = none := by
    unfold behindCode?
    split
    · next same =>
      rw [List.cons.injEq] at same
      exact absurd same.1 plain
    · rfl
  rw [strip]
  split
  · next found => exact absurd (noCode.symm.trans found) (by simp)
  · rfl

/-- **Without its codes, a text is what it is painted over.** -/
theorem strip_of_painted {colored text : List Char} (painted : Painted colored text) :
    strip colored = text := by
  -- by how the codes were put in, since a code is taken away at once and not by characters
  induction painted with
  | nil => rw [strip]; rfl
  | char plain _ ih => rw [strip_cons plain, ih]
  | code isDigit _ ih => rw [strip_code isDigit, ih]

/-! ## Text in a colour -/

/-- The code that begins a colour is made of digits. -/
theorem isDigit_digits (color : Color) : ∀ c ∈ color.digits, c.isDigit :=
  List.all_eq_true.mp (by cases color <;> rfl)

/-- The code that begins a colour may stand anywhere. -/
theorem Painted.begin {color : Color} {colored text : List Char} (painted : Painted colored text) :
    Painted (color.begin ++ colored) text :=
  .code (isDigit_digits color) painted

/-- So may the code that ends it. -/
theorem Painted.finish {colored text : List Char} (painted : Painted colored text) :
    Painted (Color.finish ++ colored) text :=
  .code (List.all_eq_true.mp rfl) painted

/-- Where no code begins, none ends a colour. -/
theorem reopen_of_clean (color : Color) {text : List Char} (clean : escape ∉ text) :
    reopen color text = text := by
  fun_induction reopen color text with
  | case1 rest => exact absurd (List.mem_cons_self ..) clean
  | case2 c rest _ ih => rw [ih fun mem => clean (List.mem_cons_of_mem _ mem)]
  | case3 => rfl

/-- The colour is ended and begun again at line breaks with codes alone. -/
theorem painted_breakLines (color : Color) {text : List Char} (clean : escape ∉ text) :
    Painted (breakLines color text) text := by
  fun_induction breakLines color text with
  | case1 rest ih =>
    simp only [List.mem_cons, not_or] at clean
    simp only [List.append_assoc, List.cons_append]
    exact .finish (.char (by decide) (.char (by decide) (.begin (ih clean.2.2))))
  | case2 rest _ ih =>
    rw [List.mem_cons, not_or] at clean
    simp only [List.append_assoc, List.cons_append]
    exact .finish (.char (by decide) (.begin (ih clean.2)))
  | case3 c rest _ _ ih =>
    rw [List.mem_cons, not_or] at clean
    exact .char (Ne.symm clean.1) (ih clean.2)
  | case4 => exact .nil

/-- A text in a colour is painted over the text. -/
theorem painted_wrap (color : Color) {text : List Char} (clean : escape ∉ text) :
    Painted (color.wrap text) text := by
  rw [wrap, reopen_of_clean color clean, List.append_assoc]
  have ended : Painted (breakLines color text ++ Color.finish) (text ++ []) :=
    (painted_breakLines color clean).append (by simpa using Painted.finish .nil)
  rw [List.append_nil] at ended
  exact ended.begin

end Color

/-! ## Strings -/

/-- Whether the character that begins a code is not in a string. -/
def Clean (text : String) : Prop := Color.escape ∉ text.toList

instance (text : String) : Decidable (Clean text) :=
  inferInstanceAs (Decidable (Color.escape ∉ text.toList))

/-- Two texts together are clean if both are. -/
@[simp] theorem clean_append {front behind : String} :
    Clean (front ++ behind) ↔ Clean front ∧ Clean behind := by
  simp [Clean, not_or]

/-- A number is written with digits alone. -/
theorem clean_repr (n : Nat) : Clean n.repr := by
  have noControl := Json.noControl_of_isDigit (Json.isNatural_toDigits n).isDigit
  rw [Clean, Nat.toList_repr]
  exact fun mem => absurd (noControl _ mem) (by decide)

/-- One of two clean texts is clean, whichever it is. -/
theorem clean_ite {p : Prop} [Decidable p] {front behind : String} (clean : Clean front)
    (clean' : Clean behind) : Clean (if p then front else behind) := by
  split <;> assumption

/-- A number of things is clean if the words for them are. -/
theorem clean_countOf (count : Nat) {one many : String} (clean : Clean one)
    (clean' : Clean many) : Clean (countOf count one many) := by
  have word : Clean (if count = 1 then one else many) := clean_ite clean clean'
  simp +decide [countOf, clean_repr, word]

/-- The name of an architecture is clean. -/
theorem clean_name (arch : CpuArch) : Clean arch.name := by
  cases arch <;> decide

/-- What is said of a script holds none of its texts. -/
theorem clean_describe (script : Script) : Clean (describe script) := by
  have libraries : Clean (countOf script.entries.length "library" "libraries") :=
    clean_countOf _ (by decide) (by decide)
  rw [describe, clean_append, clean_append]
  refine ⟨⟨?_, by decide⟩, libraries⟩
  split
  · exact clean_name _
  · decide

/-- Whether a string is another one with colour codes in it. -/
def Decorates (colored text : String) : Prop := Color.Painted colored.toList text.toList

/-- A clean text is itself with no codes in it. -/
theorem Clean.decorates {text : String} (clean : Clean text) : Decorates text text :=
  Color.Painted.refl clean

/-- Texts with codes in them are together one with the codes of both. -/
theorem Decorates.append {colored text colored' text' : String} (front : Decorates colored text)
    (behind : Decorates colored' text') : Decorates (colored ++ colored') (text ++ text') := by
  rw [Decorates, String.toList_append, String.toList_append]
  exact Color.Painted.append front behind

/-- A string in a colour is the string with codes, at any level and whatever the options are. -/
theorem decorates_paint (options : ReportOptions) (level : Nat) (color : Color) {text : String}
    (clean : Clean text) : Decorates (paint options level color text) text := by
  unfold paint
  split
  · exact clean.decorates
  · unfold Color.paint
    split
    · exact clean.decorates
    · rw [Decorates, String.toList_ofList]
      exact Color.painted_wrap color clean

/-- Lines with codes are a text with codes. -/
theorem decorates_ofLines {colored lines : List String}
    (each : List.Forall₂ Decorates colored lines) :
    Decorates (ofLines colored) (ofLines lines) := by
  induction each with
  | nil => exact Clean.decorates (by decide)
  | cons first _ ih =>
    simp only [ofLines, List.map_cons, String.join_cons]
    exact (first.append (Clean.decorates (by decide))).append ih

/-! ## Reports for people -/

/-- The texts of a result that are printed for people. -/
def printedTexts (result : CheckResult) : List String :=
  result.path :: (result.errors ++ result.warnings).map (·.message)

/-- The results that are printed for people. -/
def shown (quiet : Bool) (results : List CheckResult) : List CheckResult :=
  if quiet then results.filter CheckResult.hasIssues else results

section

variable (options : ReportOptions) (level level' : Nat)

/-- A line with a sign in a colour is the line with the sign. -/
theorem decorates_marked (color : Color) {sign word message : String} (signed : Clean sign)
    (said : Clean word) (told : Clean message) :
    Decorates ("    " ++ paint options level color sign ++ word ++ message)
      ("    " ++ sign ++ word ++ message) :=
  (((Clean.decorates (by decide)).append (decorates_paint options level color signed)).append
    said.decorates).append told.decorates

/-- The paragraph about a file in colour is the one without it, line by line. -/
theorem checkLines_decorates {result : CheckResult}
    (clean : ∀ text ∈ printedTexts result, Clean text) :
    List.Forall₂ Decorates (checkLines options level result)
      (checkLines { options with noColor := true } level' result) := by
  unfold printedTexts at clean
  rw [List.forall_mem_cons, List.map_append, List.forall_mem_append, List.forall_mem_map,
    List.forall_mem_map] at clean
  obtain ⟨path, errors, warnings⟩ := clean
  refine List.rel_append (List.rel_append (List.rel_append ?_ ?_) ?_) ?_
  · exact .cons (Clean.decorates (by decide))
      (.cons (Clean.decorates (clean_append.mpr ⟨by decide, path⟩)) .nil)
  · cases result.script with
    | none => exact .nil
    | some script =>
      have described := clean_describe script
      exact .cons (decorates_marked options level .green (by decide) (by decide) described) .nil
  · rw [List.forall₂_map_left_iff, List.forall₂_map_right_iff, List.forall₂_same]
    intro error mem
    exact decorates_marked options level .red (by decide) (by decide) (errors error mem)
  · rw [List.forall₂_map_left_iff, List.forall₂_map_right_iff, List.forall₂_same]
    intro warning mem
    exact decorates_marked options level .yellow (by decide) (by decide) (warnings warning mem)

/-- The line with the counts holds no text of a result. -/
theorem summaryLine_decorates (results : List CheckResult) :
    Decorates (summaryLine options level results)
      (summaryLine { options with noColor := true } level' results) := by
  unfold summaryLine
  dsimp only
  split
  · refine decorates_paint options level .green ?_
    simp +decide [clean_countOf]
  · refine decorates_paint options level .gray ?_
    simp +decide [clean_countOf]

/-- The report on check results for people in colour is the one without it. -/
theorem checkPretty_decorates {results : List CheckResult}
    (clean : ∀ result ∈ shown options.quiet results, ∀ text ∈ printedTexts result, Clean text) :
    Decorates (checkPretty options level results)
      (checkPretty { options with noColor := true } level' results) := by
  refine decorates_ofLines (List.rel_append ?_ ?_)
  · -- the same results on both sides, each with the texts of a printed one
    have same : List.Forall₂ (fun result result' => result = result' ∧
        result ∈ shown options.quiet results) (shown options.quiet results)
        (shown options.quiet results) :=
      List.forall₂_same.mpr fun _ mem => ⟨rfl, mem⟩
    refine List.rel_flatMap same ?_
    rintro result _ ⟨rfl, mem⟩
    exact checkLines_decorates options level level' (clean result mem)
  · dsimp only
    split
    · exact .nil
    · have line := summaryLine_decorates options level level' results
      have blank : Decorates "" "" := Clean.decorates (by decide)
      exact .cons blank (.cons line (.cons blank .nil))

/-- The lines about a library in colour are the ones without it. -/
theorem entryLine_decorates {entry : Entry} (clean : Clean entry.path) :
    Decorates (entryLine options level entry)
      (entryLine { options with noColor := true } level' entry) := by
  have label : Decorates
      (if entry.needed then "needed   " else paint options level .gray "as-needed")
      (if entry.needed then "needed   " else "as-needed") := by
    split
    · exact Clean.decorates (by decide)
    · exact decorates_paint options level .gray (by decide)
  exact (((Clean.decorates (by decide)).append label).append
    (Clean.decorates (by decide))).append clean.decorates

/-- The lines about a script in colour are the ones without it. -/
theorem scriptLines_decorates {linked : Script} (path : Clean linked.path)
    (entries : ∀ entry ∈ linked.entries, Clean entry.path) :
    List.Forall₂ Decorates (scriptLines options level linked)
      (scriptLines { options with noColor := true } level' linked) := by
  refine List.rel_append (.cons ?_ (.cons ?_ .nil)) ?_
  · exact (Clean.decorates (by decide)).append (decorates_paint options level .cyan path)
  · refine (Clean.decorates (by decide)).append ?_
    cases linked.cpuArch with
    | some arch => exact (clean_name arch).decorates
    | none => exact decorates_paint options level .gray (by decide)
  · rw [List.forall₂_map_left_iff, List.forall₂_map_right_iff, List.forall₂_same]
    exact fun entry mem => entryLine_decorates options level level' (entries entry mem)

/-! ## All reports -/

/-- A report for programs is printed without the character that begins a code. -/
theorem clean_pretty (json : Json) : Clean (json.pretty ++ "\n") := by
  refine clean_append.mpr ⟨fun mem => ?_, by decide⟩
  rcases Json.feed_of_mem_pretty mem with visible | feed
  · exact absurd visible (by decide)
  · exact absurd feed (by decide)

/-- The report on check results in colour is the one without it. -/
theorem check_decorates {results : List CheckResult}
    (clean : options.format = .pretty →
      ∀ result ∈ shown options.quiet results, ∀ text ∈ printedTexts result, Clean text) :
    Decorates (check options level results)
      (check { options with noColor := true } level' results) := by
  cases format : options.format with
  | json =>
    simp only [check, format]
    exact (clean_pretty _).decorates
  | pretty =>
    simp only [check, format]
    exact checkPretty_decorates options level level' (clean format)

/-- So is the report on a script. -/
theorem script_decorates {linked : Script}
    (clean : options.format = .pretty →
      Clean linked.path ∧ ∀ entry ∈ linked.entries, Clean entry.path) :
    Decorates (script options level linked)
      (script { options with noColor := true } level' linked) := by
  cases format : options.format with
  | json =>
    simp only [script, format]
    exact (clean_pretty _).decorates
  | pretty =>
    obtain ⟨path, entries⟩ := clean format
    simp only [script, format]
    exact decorates_ofLines (scriptLines_decorates options level level' path entries)

end

/-- **Colour is only decoration.**  Take any options, with colour or without, and any two levels.

* The report on check results, without its codes, is the report without colour, if the character
  that begins a code is in none of the texts that are printed for people: the paths and messages
  of all results, or of those with errors or warnings if nothing else is asked for.
* So is the report on a script, if that character is in none of its paths.
* For programs, whatever the texts are, there are no codes, and the two reports are the same. -/
theorem strip_report (options : ReportOptions) (level level' : Nat) :
    let uncolored := { options with noColor := true }
    (∀ results, (options.format = .pretty →
        ∀ result ∈ shown options.quiet results, ∀ text ∈ printedTexts result, Clean text) →
      Color.strip (check options level results).toList = (check uncolored level' results).toList) ∧
    (∀ linked : Script, (options.format = .pretty →
        Clean linked.path ∧ ∀ entry ∈ linked.entries, Clean entry.path) →
      Color.strip (script options level linked).toList = (script uncolored level' linked).toList) ∧
    (options.format = .json →
      (∀ results, check options level results = check uncolored level' results) ∧
      ∀ linked, script options level linked = script uncolored level' linked) := by
  intro uncolored
  refine ⟨?_, ?_, ?_⟩
  · intro results clean
    exact Color.strip_of_painted (check_decorates options level level' clean)
  · intro linked clean
    exact Color.strip_of_painted (script_decorates options level level' clean)
  · intro json
    constructor
    · intro results
      simp only [check, uncolored, json]
    · intro linked
      simp only [script, uncolored, json]

/-- A path on three lines, and a result that is left out, though its path begins with a code. -/
theorem strip_report_lines :
    let options : ReportOptions := { quiet := true }
    let uncolored := { options with noColor := true }
    let results : List CheckResult := [{ path := "\x1b[31m" },
      { path := "b\nc",
        errors := [{ severity := .error, path := "b", message := "no\r\nscript" }] }]
    let linked : Script := { path := "a\nb\r\nc", entries := [⟨"d", false, ⟨0, 0⟩⟩] }
    (∀ result ∈ shown options.quiet results, ∀ text ∈ printedTexts result, Clean text) ∧
    (Clean linked.path ∧ ∀ entry ∈ linked.entries, Clean entry.path) ∧
    check options 1 results = "\n  b\nc\n    \x1b[31m✗\x1b[39m error  no\r\nscript\n" ++
      "\n\x1b[90m  Found 1 error and 0 warnings in 2 files\x1b[39m\n\n" ∧
    script options 1 linked =
      "  \x1b[36ma\x1b[39m\n\x1b[36mb\x1b[39m\r\n\x1b[36mc\x1b[39m\n" ++
        "    arch       \x1b[90m(none)\x1b[39m\n    \x1b[90mas-needed\x1b[39m  d\n" ∧
    Color.strip (check options 1 results).toList = (check uncolored 0 results).toList ∧
    Color.strip (script options 1 linked).toList = (script uncolored 0 linked).toList ∧
    check { uncolored with format := .json } 0 results =
      check { options with format := .json } 1 results := by
  intro options uncolored results linked
  obtain ⟨checked, scripted, -⟩ := strip_report options 1 0
  obtain ⟨-, -, same⟩ := strip_report { options with format := .json } 1 0
  have texts : ∀ result ∈ shown options.quiet results, ∀ text ∈ printedTexts result,
      Clean text := by
    decide
  have paths : Clean linked.path ∧ ∀ entry ∈ linked.entries, Clean entry.path := by decide
  exact ⟨texts, paths, by decide, by decide, checked results fun _ => texts,
    scripted linked fun _ => paths, ((same rfl).1 results).symm⟩

end LinkScript.Report
