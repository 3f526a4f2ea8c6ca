import LinkScript.Proofs.Check.Kinds
import LinkScript.Proofs.Program.Documents

/-!
# Checks that are to be quiet

A quiet check for people is to say something only if there is something to say.  Object files are
something: each of them gives a warning, which is no failure, but is printed all the same.

* `Host.stdout_of_quiet`: what a quiet check prints, with the paragraphs of the files that fail or
  are object files, and the counts.
* `Host.stdout_eq_empty_iff`: it prints nothing exactly if there are no such files.
* `Host.runCheck_quiet`: what a quiet check prints when it ends in 0, which is nothing unless there
  is an object file.
* `Host.not_quiet_silent`: so it is not true that every quiet check that ends in 0 prints nothing.
-/

namespace LinkScript

/-! ## Texts -/

/-- The paragraph about an object file. -/
def Report.skipped (options : ReportOptions) (level : Nat) (file : String) : String :=
  "\n  " ++ file ++ "\n    " ++ paint options level .yellow "⚠" ++
    " warn   Not a linker script (ELF object), skipped\n"

namespace Host

variable {host : Host} {paths : List String} {logger : Logger} {options : ReportOptions}
  {candidates : Candidates} {file : String}

/-- What is said about an object file. -/
theorem paragraph_of_isObject (object : host.isObject file = true) :
    Report.paragraph options host.colorLevel (host.result file) =
      Report.skipped options host.colorLevel file := by
  unfold isObject at object
  unfold result
  split at object
  · cases object
  · next source read =>
    rw [read, CheckResult.ofRead_of_isElf object]
    simp [Report.paragraph, Report.checkLines, Report.ofLines, Report.skipped, Diagnostic.ofFile,
      ← String.toList_inj]

/-- A check ends in 0 exactly if no path is missing and no file fails. -/
theorem verdict_eq_zero_iff : host.verdict candidates = 0 ↔
    candidates.missing = [] ∧ ∀ file ∈ candidates.files, host.fails file = false := by
  unfold verdict
  split
  · next failing => simpa [imp_iff_not_or] using failing
  · next passing => simpa using passing

/-- A check whose search goes through ends in its verdict. -/
theorem outcome_of_found (accepting : logger.IsAccepting)
    (found : findScriptFiles host.root host.cwd paths = .ok candidates) :
    (host.runCheck paths options logger).outcome = .ok (host.verdict candidates) := by
  by_cases nothing : candidates.files = []
  · rw [runCheck_of_nothing found nothing, Run.outcome_showing]
  · rw [runCheck_of_files accepting found nothing, Run.outcome_showing]

/-! ## What a quiet check prints -/

/-- A quiet check prints paragraphs for files that fail or are object files, and then the counts,
unless there are none. -/
theorem stdout_of_quiet (accepting : logger.IsAccepting) (pretty : options.format = .pretty)
    (quiet : options.quiet = true)
    (found : findScriptFiles host.root host.cwd paths = .ok candidates) :
    (host.runCheck paths options logger).stdout =
      String.join ((candidates.files.filter fun file => host.fails file || host.isObject file).map
        fun file => Report.paragraph options host.colorLevel (host.result file)) ++
      if candidates.files.countP host.fails = 0 ∧ candidates.files.countP host.isObject = 0 then ""
      else "\n" ++ Report.totalsLine options host.colorLevel candidates.files.length
        (candidates.files.countP host.fails) (candidates.files.countP host.isObject) ++ "\n\n" := by
  by_cases nothing : candidates.files = []
  · rw [stdout_of_nothing found nothing, quiet, nothing]
    rfl
  · rw [stdout_eq_check accepting found nothing, Report.check, pretty]
    simp only [checkPretty_results, quiet, Bool.not_true, Bool.false_or, true_and]

/-- **A quiet check prints nothing exactly if no file fails and none is an object file.** -/
theorem stdout_eq_empty_iff (accepting : logger.IsAccepting) (pretty : options.format = .pretty)
    (quiet : options.quiet = true)
    (found : findScriptFiles host.root host.cwd paths = .ok candidates) :
    (host.runCheck paths options logger).stdout = "" ↔
      ∀ file ∈ candidates.files, host.fails file = false ∧ host.isObject file = false := by
  have none : (candidates.files.countP host.fails = 0 ∧ candidates.files.countP host.isObject = 0) ↔
      ∀ file ∈ candidates.files, host.fails file = false ∧ host.isObject file = false := by
    simp only [List.countP_eq_zero, Bool.not_eq_true, ← forall_and]
  rw [stdout_of_quiet accepting pretty quiet found, ← none]
  constructor
  · intro silent
    by_contra some
    rw [if_neg some] at silent
    have counts := (String.append_eq_empty_iff.mp silent).2
    have lineBreaks := (String.append_eq_empty_iff.mp counts).2
    exact absurd lineBreaks (by decide)
  · intro nothing
    rw [if_pos nothing]
    have dropped : candidates.files.filter (fun file => host.fails file || host.isObject file) =
        [] := by
      simpa [List.filter_eq_nil_iff] using none.mp nothing
    rw [dropped]
    rfl

/-- **What a quiet check prints when it ends in 0.**  With a logger that takes every line, let a
quiet check for people end in 0.  Then no path is missing and no file fails.  It prints nothing
exactly if no file is an object file, and otherwise that each of these is skipped, and the counts. -/
theorem runCheck_quiet (host : Host) (paths : List String) (options : ReportOptions)
    (pretty : options.format = .pretty) (quiet : options.quiet = true) {logger : Logger}
    (accepting : logger.IsAccepting)
    (passed : (host.runCheck paths options logger).outcome = .ok 0) :
    ∃ files, findScriptFiles host.root host.cwd paths = .ok ⟨files, []⟩ ∧
      (∀ file ∈ files, host.fails file = false) ∧
      ((host.runCheck paths options logger).stdout = "" ↔
        ∀ file ∈ files, host.isObject file = false) ∧
      ((∃ file ∈ files, host.isObject file = true) →
        (host.runCheck paths options logger).stdout =
          String.join ((files.filter host.isObject).map
            (Report.skipped options host.colorLevel)) ++
          "\n" ++ Report.totalsLine options host.colorLevel files.length 0
            (files.countP host.isObject) ++ "\n\n") := by
  rcases found : findScriptFiles host.root host.cwd paths with fault | ⟨files, missing⟩
  · rw [runCheck_of_error found] at passed
    cases passed
  rw [outcome_of_found accepting found] at passed
  obtain ⟨rfl, passing⟩ := verdict_eq_zero_iff.mp (Except.ok.inj passed)
  refine ⟨files, rfl, passing, ?_, ?_⟩
  · rw [stdout_eq_empty_iff accepting pretty quiet found]
    constructor
    · intro silent file mem
      exact (silent file mem).2
    · intro none file mem
      exact ⟨passing file mem, none file mem⟩
  · rintro ⟨object, inside, isObject⟩
    have some : files.countP host.isObject ≠ 0 := by
      rw [← Nat.pos_iff_ne_zero, List.countP_pos_iff]
      exact ⟨object, inside, isObject⟩
    have noFailure : files.countP host.fails = 0 := by
      simpa [List.countP_eq_zero] using passing
    have shown : files.filter (fun file => host.fails file || host.isObject file) =
        files.filter host.isObject := by
      apply List.filter_congr
      intro file mem
      rw [passing file mem, Bool.false_or]
    have paragraphs : (files.filter host.isObject).map
          (fun file => Report.paragraph options host.colorLevel (host.result file)) =
        (files.filter host.isObject).map (Report.skipped options host.colorLevel) := by
      apply List.map_congr_left
      intro file mem
      exact paragraph_of_isObject (List.mem_filter.mp mem).2
    rw [stdout_of_quiet accepting pretty quiet found]
    dsimp only
    rw [noFailure, if_neg (fun none => some none.2), shown, paragraphs]
    simp only [String.append_assoc]

/-- The script of the mixed host is a file to check. -/
theorem findScriptFiles_mixedHost_script :
    findScriptFiles mixedHost.root mixedHost.cwd ["lib/a.so"] = .ok ⟨["/w/lib/a.so"], []⟩ := by
  decide +kernel

/-- So is its object file. -/
theorem findScriptFiles_mixedHost_object :
    findScriptFiles mixedHost.root mixedHost.cwd ["lib/c.so"] = .ok ⟨["/w/lib/c.so"], []⟩ := by
  decide +kernel

/-- A quiet check prints nothing about a script that reads, and says of an object file that it is
skipped. -/
theorem runCheck_quiet_mixed :
    let logger := Logger.create "" none none fun _ => .ok ()
    let options : ReportOptions := { quiet := true, noColor := true }
    (mixedHost.runCheck ["lib/a.so"] options logger).outcome = .ok 0 ∧
    (mixedHost.runCheck ["lib/a.so"] options logger).stdout = "" ∧
    (mixedHost.runCheck ["lib/c.so"] options logger).outcome = .ok 0 ∧
    (mixedHost.runCheck ["lib/c.so"] options logger).stdout =
      "\n  /w/lib/c.so\n    ⚠ warn   Not a linker script (ELF object), skipped\n" ++
        "\n  Found 0 errors and 1 warning in 1 file\n\n" := by
  intro logger options
  have accepting : logger.IsAccepting := fun _ => rfl
  have script := findScriptFiles_mixedHost_script
  have object := findScriptFiles_mixedHost_object
  have read : (mixedHost.runCheck ["lib/a.so"] options logger).outcome = .ok 0 := by
    rw [outcome_of_found accepting script]
    decide +kernel
  have skipped : (mixedHost.runCheck ["lib/c.so"] options logger).outcome = .ok 0 := by
    rw [outcome_of_found accepting object]
    decide +kernel
  refine ⟨read, ?_, skipped, ?_⟩
  · obtain ⟨files, found, -, silent, -⟩ :=
      runCheck_quiet mixedHost ["lib/a.so"] options rfl rfl accepting read
    rw [script] at found
    cases found
    exact silent.mpr (by decide +kernel)
  · obtain ⟨files, found, -, -, printed⟩ :=
      runCheck_quiet mixedHost ["lib/c.so"] options rfl rfl accepting skipped
    rw [object] at found
    cases found
    rw [printed ⟨"/w/lib/c.so", by decide +kernel, by decide +kernel⟩]
    decide +kernel

/-- Not every quiet check that ends in 0 prints nothing: it says that an object file is skipped. -/
theorem not_quiet_silent :
    ¬ ∀ (host : Host) (paths : List String) (options : ReportOptions) (logger : Logger),
      logger.IsAccepting → options.format = .pretty → options.quiet = true →
      (host.runCheck paths options logger).outcome = .ok 0 →
      (host.runCheck paths options logger).stdout = "" := by
  intro silent
  let logger := Logger.create "" none none fun _ => .ok ()
  have accepting : logger.IsAccepting := fun _ => rfl
  have object := findScriptFiles_mixedHost_object
  have ends : (mixedHost.runCheck ["lib/c.so"] { quiet := true } logger).outcome = .ok 0 := by
    rw [outcome_of_found accepting object]
    decide +kernel
  have nothing := silent mixedHost ["lib/c.so"] { quiet := true } logger accepting rfl rfl ends
  have none := (stdout_eq_empty_iff accepting rfl rfl object).mp nothing "/w/lib/c.so" (by simp)
  exact absurd none.2 (by decide +kernel)

end Host

end LinkScript
