import LinkScript.Proofs.Program.Verdict

/-!
# Checks that print documents

When a check is asked for a report for programs, another program is to read what it prints.

* `Json.IsLine` is one document with a line break behind it, and `Run.SpeaksJson` says that a run
  prints such a line or nothing at all.
* `Host.runCheck_speaksJson`: a check prints its report as a document if there is a file to check.
  If there is none it prints no document but a sentence, unless it is to be quiet.
* `Host.not_runCheck_speaksJson`: so it is not true that all checks speak JSON.
-/

namespace LinkScript

/-! ## Documents on the standard output -/

/-- A text that is one JSON document with a line break behind it. -/
def Json.IsLine (text : String) : Prop :=
  ∃ document json, text = document ++ "\n" ∧ Json.read document = some json

/-- Whether a run prints one JSON document with a line break behind it, or nothing. -/
def Run.SpeaksJson {α : Type} (run : Run α) : Prop :=
  run.stdout = "" ∨ Json.IsLine run.stdout

/-- A printed value with a line break behind it is a document. -/
theorem Json.isLine_pretty (json : Json) : IsLine (json.pretty ++ "\n") :=
  ⟨json.pretty, json, rfl, read_lines json⟩

/-- The sentence that there are no files is not a document. -/
theorem Run.not_speaksJson_of_sentence {α : Type} {run : Run α}
    (sentence : run.stdout = "No files found to check\n") : ¬ run.SpeaksJson := by
  unfold SpeaksJson
  rw [sentence]
  rintro (nothing | ⟨document, json, whole, read⟩)
  · exact absurd nothing (by decide)
  · have words : document = "No files found to check" := by
      have chars : document.toList ++ ['\n'] = "No files found to check".toList ++ ['\n'] := by
        rw [← String.toList_inj, String.toList_append] at whole
        exact whole.symm
      exact String.toList_inj.mp (List.append_cancel_right chars)
    have unread : Json.read "No files found to check" = none := by decide +kernel
    rw [words, unread] at read
    cases read

namespace Host

section

variable {host : Host} {paths : List String} {logger : Logger} {options : ReportOptions}
  {candidates : Candidates}

/-- Without files a check prints a sentence that says so, or nothing if it is to be quiet. -/
theorem stdout_of_nothing
    (found : findScriptFiles host.root host.cwd paths = .ok candidates)
    (nothing : candidates.files = []) :
    (host.runCheck paths options logger).stdout =
      if options.quiet then "" else "No files found to check\n" := by
  rw [runCheck_of_nothing found nothing, Run.stdout_showing]
  cases options.quiet <;> rfl

/-- With files a check prints its report on them. -/
theorem stdout_of_files (accepting : logger.IsAccepting) (json : options.format = .json)
    (found : findScriptFiles host.root host.cwd paths = .ok candidates)
    (some : candidates.files ≠ []) :
    (host.runCheck paths options logger).stdout =
      (Report.checkJson (candidates.files.map host.result)).pretty ++ "\n" := by
  rw [stdout_eq_check accepting found some, Report.check, json]

end

/-- **What a check prints for programs.**  With a logger that takes every line, let a check that is
asked for JSON return.  If there is a file to check, it prints one document with a line break behind
it, which is its report on the files.  If there is none, it prints nothing if it is to be quiet, and
otherwise the sentence for people that says so.  So it speaks JSON unless this sentence comes. -/
theorem runCheck_speaksJson (host : Host) (paths : List String) (options : ReportOptions)
    (json : options.format = .json) {logger : Logger} (accepting : logger.IsAccepting) {code : Nat}
    (returned : (host.runCheck paths options logger).outcome = .ok code) :
    ∃ candidates, findScriptFiles host.root host.cwd paths = .ok candidates ∧
      (candidates.files ≠ [] → ∃ document,
        (host.runCheck paths options logger).stdout = document ++ "\n" ∧
        Json.read document =
          some (Report.checkJson (candidates.files.map host.result))) ∧
      (candidates.files = [] → (host.runCheck paths options logger).stdout =
        if options.quiet then "" else "No files found to check\n") ∧
      ((host.runCheck paths options logger).SpeaksJson ↔
        candidates.files ≠ [] ∨ options.quiet = true) := by
  rcases found : findScriptFiles host.root host.cwd paths with fault | candidates
  · rw [runCheck_of_error found] at returned
    cases returned
  refine ⟨candidates, rfl, ?_, stdout_of_nothing found, ?_⟩
  · intro some
    exact ⟨_, stdout_of_files accepting json found some, Json.read_lines _⟩
  by_cases nothing : candidates.files = []
  · have printed : (host.runCheck paths options logger).stdout =
        if options.quiet then "" else "No files found to check\n" :=
      stdout_of_nothing found nothing
    cases quiet : options.quiet with
    | true =>
      rw [quiet] at printed
      exact iff_of_true (Or.inl printed) (Or.inr rfl)
    | false =>
      rw [quiet] at printed
      refine iff_of_false (Run.not_speaksJson_of_sentence printed) ?_
      rintro (some | ⟨⟨⟩⟩)
      exact some nothing
  · have printed := stdout_of_files accepting json found nothing
    refine iff_of_true (Or.inr ?_) (Or.inl nothing)
    rw [printed]
    exact Json.isLine_pretty _

end Host

/-- A host with a directory that is empty and a script. -/
def sparseHost : Host where
  root := .directory [("w", .directory
    [("empty", .directory []), ("libm.so", .file (Text.Utf8.encode "GROUP(libm.so.6)"))])]
  cwd := ["w"]
  timestamp := ""

/-- In its empty directory there is nothing to check. -/
theorem findScriptFiles_sparseHost :
    findScriptFiles sparseHost.root sparseHost.cwd ["empty"] = .ok ⟨[], []⟩ := by
  decide +kernel

/-- A check speaks JSON where there is a script, and in an empty directory if it is to be quiet. -/
theorem Host.runCheck_speaksJson_sparse :
    let logger := Logger.create "" none none fun _ => .ok ()
    (sparseHost.runCheck ["libm.so"] { format := .json } logger).SpeaksJson ∧
    (sparseHost.runCheck ["empty"] { format := .json, quiet := true } logger).SpeaksJson ∧
    ¬ (sparseHost.runCheck ["empty"] { format := .json } logger).SpeaksJson := by
  intro logger
  have accepting : logger.IsAccepting := fun _ => rfl
  have script : findScriptFiles sparseHost.root sparseHost.cwd ["libm.so"] =
      .ok ⟨["/w/libm.so"], []⟩ := by
    decide +kernel
  have read : (sparseHost.runCheck ["libm.so"] { format := .json } logger).outcome =
      .ok (sparseHost.verdict ⟨["/w/libm.so"], []⟩) :=
    congrArg Run.outcome (Host.runCheck_of_files accepting script (by decide))
  have ends (options : ReportOptions) : (sparseHost.runCheck ["empty"] options logger).outcome =
      .ok (sparseHost.verdict ⟨[], []⟩) :=
    congrArg Run.outcome (Host.runCheck_of_nothing findScriptFiles_sparseHost rfl)
  refine ⟨?_, ?_, ?_⟩
  · obtain ⟨candidates, found, -, -, speaks⟩ :=
      Host.runCheck_speaksJson sparseHost ["libm.so"] { format := .json } rfl accepting read
    rw [script] at found
    cases found
    exact speaks.mpr (Or.inl (by decide))
  · obtain ⟨candidates, found, -, -, speaks⟩ := Host.runCheck_speaksJson sparseHost ["empty"]
      { format := .json, quiet := true } rfl accepting (ends _)
    rw [findScriptFiles_sparseHost] at found
    cases found
    exact speaks.mpr (Or.inr rfl)
  · obtain ⟨candidates, found, -, -, speaks⟩ :=
      Host.runCheck_speaksJson sparseHost ["empty"] { format := .json } rfl accepting (ends _)
    rw [findScriptFiles_sparseHost] at found
    cases found
    rw [speaks]
    decide

/-- Not every check that is asked for JSON speaks it: in an empty directory it prints a sentence. -/
theorem Host.not_runCheck_speaksJson :
    ¬ ∀ (host : Host) (paths : List String) (options : ReportOptions) (logger : Logger)
      (code : Nat), logger.IsAccepting → options.format = .json →
      (host.runCheck paths options logger).outcome = .ok code →
      (host.runCheck paths options logger).SpeaksJson := by
  intro speak
  let logger := Logger.create "" none none fun _ => .ok ()
  have ends : (sparseHost.runCheck ["empty"] { format := .json } logger).outcome =
      .ok (sparseHost.verdict ⟨[], []⟩) :=
    congrArg Run.outcome (Host.runCheck_of_nothing findScriptFiles_sparseHost rfl)
  have sentence : (sparseHost.runCheck ["empty"] { format := .json } logger).stdout =
      "No files found to check\n" := Host.stdout_of_nothing findScriptFiles_sparseHost rfl
  exact Run.not_speaksJson_of_sentence sentence
    (speak sparseHost ["empty"] { format := .json } logger _ (fun _ => rfl) rfl ends)

end LinkScript
