import LinkScript.Proofs.Files.Discovery
import LinkScript.Proofs.Program.Agreement
import LinkScript.Proofs.Report.Color

/-!
# The verdict of a check

A check run counts its files several times over: for the exit code, for the log, and for the report,
which is made in one of two ways.  All of them count the same results.

* `Host.fails` and `Host.isObject`: what there is to be counted, said of a file without checking it.
  `Host.totalErrors_results` and `Host.totalWarnings_results` say that the results have just that.
* `Host.runCheck_of_error`, `Host.runCheck_of_nothing` and `Host.runCheck_of_files`: the three runs
  that there are when the logger takes every line.
* `Host.Accounts`: what a run says of its files, in the log and in either report.
* `Host.runCheck_verdict`: when a run is broken off, how it ends otherwise, what it says of its
  files, and that neither its end nor its complaints nor its log depend on the report asked for.
-/

namespace LinkScript

namespace Host

/-! ## What is counted -/

/-- Whether a file is a failure: it cannot be read, or it is neither an object file nor a script
that reads. -/
def fails (host : Host) (file : String) : Bool :=
  match host.root.read host.cwd file with
  | .error _ => true
  | .ok contents => !isElf contents && !(parse contents).isOk

/-- Whether a file is an object file. -/
def isObject (host : Host) (file : String) : Bool :=
  match host.root.read host.cwd file with
  | .error _ => false
  | .ok contents => isElf contents

/-- The result for a file. -/
def result (host : Host) (file : String) : CheckResult :=
  .ofRead file (host.root.read host.cwd file)

/-- What is logged of a file. -/
def lines (host : Host) (logger : Logger) (file : String) : List String :=
  readLines logger file (host.root.read host.cwd file)

section

variable (host : Host) (file : String) (files : List String)

/-- The result for a file is at its path, with an error if the file fails and a warning if it is an
object file. -/
theorem result_counts :
    (host.result file).path = file ∧
      (host.result file).errors.length = (host.fails file).toNat ∧
      (host.result file).warnings.length = (host.isObject file).toNat := by
  unfold result fails isObject CheckResult.ofRead
  rcases host.root.read host.cwd file with fault | source
  · exact ⟨rfl, rfl, rfl⟩
  · dsimp only
    by_cases elf : isElf source = true
    · simp [elf]
    · rw [if_neg elf]
      rcases parse_ok_or_link source with ⟨contents, accepted⟩ | ⟨failure, refused⟩
      · simp [accepted, elf, Except.isOk, Except.toBool]
      · simp [refused, elf, Except.isOk, Except.toBool]

/-- The result for a file is at its path. -/
theorem path_result : (host.result file).path = file := (host.result_counts file).1

/-- There is something in a list of as many items as a truth value counts if the value is true. -/
theorem not_isEmpty_of_length {α : Type} {items : List α} {counted : Bool}
    (length : items.length = counted.toNat) : (!items.isEmpty) = counted := by
  cases counted with
  | false => simpa using List.eq_nil_of_length_eq_zero length
  | true => simpa using List.ne_nil_of_length_eq_add_one length

/-- The result for a file has an error exactly if the file fails. -/
theorem failed_result : (host.result file).failed = host.fails file :=
  not_isEmpty_of_length (host.result_counts file).2.1

/-- There is something to say about a file exactly if it fails or is an object file. -/
theorem hasIssues_result :
    (host.result file).hasIssues = (host.fails file || host.isObject file) := by
  rw [CheckResult.hasIssues, failed_result, not_isEmpty_of_length (host.result_counts file).2.2]

/-- What there is in the results of at most one for each file is as much as there are files that
have one. -/
theorem length_flatMap_result {α : Type} {found : CheckResult → List α} {counted : String → Bool}
    (one : ∀ file, (found (host.result file)).length = (counted file).toNat) :
    ((files.map host.result).flatMap found).length = files.countP counted := by
  induction files with
  | nil => rfl
  | cons file files ih =>
    rw [List.map_cons, List.flatMap_cons, List.length_append, ih, one, List.countP_cons,
      Nat.add_comm]
    cases counted file <;> rfl

/-- The errors of all results are the files that fail. -/
theorem totalErrors_results :
    Report.totalErrors (files.map host.result) = files.countP host.fails :=
  host.length_flatMap_result files fun file => (host.result_counts file).2.1

/-- The warnings of all results are the object files. -/
theorem totalWarnings_results :
    Report.totalWarnings (files.map host.result) = files.countP host.isObject :=
  host.length_flatMap_result files fun file => (host.result_counts file).2.2

/-- The exit code for the results is one exactly if a file fails. -/
theorem exitCode_results :
    Report.exitCode (files.map host.result) = if files.any host.fails then 1 else 0 := by
  rw [Report.exitCode, List.any_map]
  congr 2
  exact List.any_congr rfl fun file => host.failed_result file

end

/-! ## The runs that there are -/

section

variable {host : Host} {paths : List String} {logger : Logger} {options : ReportOptions}
  {candidates : Candidates}

/-- The complaints about paths that lead nowhere. -/
def complaints (missing : List String) : List String :=
  missing.map fun path => "Path not found: " ++ path ++ "\n"

/-- There is a complaint about each path that leads nowhere, and nothing else. -/
theorem complainMissing_eq (missing : List String) :
    complainMissing missing = Run.showing (complaints missing) [] [] (.ok ()) := by
  induction missing with
  | nil => rfl
  | cons path rest ih =>
    rw [complainMissing, ih]
    rfl

/-- Checking files logs what there is to log of each and gives their results, in order. -/
theorem checkFiles_eq (accepting : logger.IsAccepting) (files : List String) :
    host.checkFiles logger files =
      Run.logging (files.flatMap (host.lines logger)) (files.map host.result) := by
  induction files with
  | nil => rfl
  | cons file rest ih =>
    rw [checkFiles, checkFile_eq accepting, List.flatMap_cons, List.map_cons]
    apply Run.logging_bind_logging
    rw [ih]
    exact Run.logging_bind_pure _ _ _ rfl

/-- What is logged of files: what is logged of each, and their totals. -/
def loggedLines (host : Host) (logger : Logger) (files : List String) : List String :=
  files.flatMap (host.lines logger) ++
    (logger.line? .info "check_completed"
      [("files", .nat files.length), ("failed", .nat (files.countP host.fails))]).toList

/-- The exit code of a check: one if a path is missing or a file fails. -/
def verdict (host : Host) (candidates : Candidates) : Nat :=
  if candidates.missing ≠ [] ∨ ∃ file ∈ candidates.files, host.fails file = true then 1 else 0

/-- A search that fails is all there is. -/
theorem runCheck_of_error {fault : FileFault}
    (failed : findScriptFiles host.root host.cwd paths = .error fault) :
    host.runCheck paths options logger = Run.showing [] [] [] (.error (.file fault)) := by
  rw [runCheck, failed]
  rfl

/-- Without a file there are complaints, and a line that says so unless it is not asked for. -/
theorem runCheck_of_nothing
    (found : findScriptFiles host.root host.cwd paths = .ok candidates)
    (nothing : candidates.files = []) :
    host.runCheck paths options logger =
      Run.showing (complaints candidates.missing) []
        (if options.quiet then [] else ["No files found to check\n"])
        (.ok (host.verdict candidates)) := by
  rw [runCheck, found]
  change complainMissing candidates.missing >>= _ = _
  rw [complainMissing_eq]
  apply Run.showing_bind
  rw [nothing, verdict, nothing]
  cases options.quiet <;> cases candidates.missing <;> rfl

/-- Files are checked, counted in the log and reported on. -/
theorem runCheck_of_files (accepting : logger.IsAccepting)
    (found : findScriptFiles host.root host.cwd paths = .ok candidates)
    (some : candidates.files ≠ []) :
    host.runCheck paths options logger =
      Run.showing (complaints candidates.missing) (host.loggedLines logger candidates.files)
        [Report.check options host.colorLevel (candidates.files.map host.result)]
        (.ok (host.verdict candidates)) := by
  have completed : completedMetadata (candidates.files.map host.result) =
      [("files", .nat candidates.files.length),
        ("failed", .nat (candidates.files.countP host.fails))] := by
    have failed : (CheckResult.failed ∘ host.result) = host.fails := funext host.failed_result
    rw [completedMetadata, List.length_map, ← List.countP_eq_length_filter, List.countP_map, failed]
  have code : max (Report.exitCode (candidates.files.map host.result))
      (if candidates.missing.isEmpty then 0 else 1) = host.verdict candidates := by
    rw [exitCode_results, verdict]
    by_cases failing : ∃ file ∈ candidates.files, host.fails file = true
    · rw [if_pos (List.any_eq_true.mpr failing), if_pos (Or.inr failing)]
      split <;> rfl
    · rw [if_neg (mt List.any_eq_true.mp failing), Nat.zero_max]
      cases candidates.missing <;> simp [failing]
  rw [runCheck, found]
  change complainMissing candidates.missing >>= _ = _
  rw [complainMissing_eq]
  apply Run.showing_bind
  rw [if_neg (by simpa using some), checkFiles_eq accepting]
  apply Run.logging_bind_showing
  rw [Logger.log_eq accepting, completed, code, Run.logging_bind]
  simp [Run.showing, Run.print, Run.emit, bind, Run.bind, pure, Run.pure]

/-- What is printed on files is the report on their results. -/
theorem stdout_eq_check (accepting : logger.IsAccepting)
    (found : findScriptFiles host.root host.cwd paths = .ok candidates)
    (some : candidates.files ≠ []) :
    (host.runCheck paths options logger).stdout =
      Report.check options host.colorLevel (candidates.files.map host.result) := by
  rw [runCheck_of_files accepting found some, Run.stdout_showing, String.join_cons,
    String.join_nil, String.append_empty]

end

end Host

/-! ## What is printed of the totals -/

namespace Report

variable (options : ReportOptions) (level : Nat)

/-- The counts in words: each number as it is written, with its noun. -/
def totals (files errors warnings : Nat) : String :=
  let found := toString files ++ " " ++ if files = 1 then "file" else "files"
  if errors = 0 ∧ warnings = 0 then "  ✓ All " ++ found ++ " passed"
  else
    "  Found " ++ toString errors ++ " " ++ (if errors = 1 then "error" else "errors")
      ++ " and " ++ toString warnings ++ " " ++ (if warnings = 1 then "warning" else "warnings")
      ++ " in " ++ found

/-- The line with the counts: green if there is neither an error nor a warning, and else grey. -/
def totalsLine (files errors warnings : Nat) : String :=
  paint options level (if errors = 0 ∧ warnings = 0 then .green else .gray)
    (totals files errors warnings)

/-- No colour code is in the counts. -/
theorem clean_totals (files errors warnings : Nat) : Clean (totals files errors warnings) := by
  have file : Clean (if files = 1 then "file" else "files") := clean_ite (by decide) (by decide)
  have error : Clean (if errors = 1 then "error" else "errors") :=
    clean_ite (by decide) (by decide)
  have warning : Clean (if warnings = 1 then "warning" else "warnings") :=
    clean_ite (by decide) (by decide)
  unfold totals
  by_cases nothing : errors = 0 ∧ warnings = 0
  · simp +decide [nothing, clean_repr, file]
  · simp +decide [nothing, clean_repr, file, error, warning]

/-- The line with the counts says the counts in words, whatever its colour. -/
theorem totalsLine_decorates (files errors warnings : Nat) :
    Decorates (totalsLine options level files errors warnings) (totals files errors warnings) :=
  decorates_paint options level _ (clean_totals files errors warnings)

/-- Without colour it is nothing but that. -/
theorem totalsLine_of_plain (plain : options.noColor = true ∨ level = 0)
    (files errors warnings : Nat) :
    totalsLine options level files errors warnings = totals files errors warnings := by
  rw [totalsLine, paint]
  rcases plain with noColor | rfl
  · rw [if_pos noColor]
  · rw [Color.paint, if_pos (Or.inl rfl), ite_self]

/-- The line that is printed has the counts of the results. -/
theorem summaryLine_eq (results : List CheckResult) :
    summaryLine options level results =
      totalsLine options level results.length (totalErrors results) (totalWarnings results) := by
  unfold summaryLine totalsLine totals
  dsimp only
  split
  · rfl
  · simp only [countOf, String.append_assoc]

/-- The paragraph about a file as text. -/
def paragraph (result : CheckResult) : String := ofLines (checkLines options level result)

/-- A paragraph begins with the path of the file, on a line of its own. -/
theorem exists_paragraph (result : CheckResult) :
    ∃ rest, paragraph options level result = "\n  " ++ result.path ++ "\n" ++ rest := by
  refine ⟨ofLines ((checkLines options level result).drop 2), ?_⟩
  have lines : checkLines options level result =
      "" :: ("  " ++ result.path) :: (checkLines options level result).drop 2 := rfl
  rw [paragraph, lines]
  simp [ofLines, ← String.toList_inj]

/-- Lines behind lines are a text behind a text. -/
theorem ofLines_append (lines more : List String) :
    ofLines (lines ++ more) = ofLines lines ++ ofLines more := by
  rw [ofLines, List.map_append, String.join_append]
  rfl

/-- The lines about several things are the texts about them, one behind the other. -/
theorem ofLines_flatMap {α : Type} (items : List α) (lines : α → List String) :
    ofLines (items.flatMap lines) = String.join (items.map fun item => ofLines (lines item)) := by
  induction items with
  | nil => rfl
  | cons item items ih =>
    rw [List.flatMap_cons, ofLines_append, ih, List.map_cons, String.join_cons]

/-- A report for people is a paragraph after another, and then the counts. -/
theorem checkPretty_eq (results : List CheckResult) :
    checkPretty options level results =
      String.join ((results.filter fun result => !options.quiet || result.hasIssues).map
        (paragraph options level)) ++
      if options.quiet = true ∧ totalErrors results = 0 ∧ totalWarnings results = 0 then ""
      else "\n" ++ totalsLine options level results.length (totalErrors results)
        (totalWarnings results) ++ "\n\n" := by
  have shown : (if options.quiet then results.filter CheckResult.hasIssues else results) =
      results.filter fun result => !options.quiet || result.hasIssues := by
    cases options.quiet <;> simp
  unfold checkPretty
  rw [ofLines_append, shown, ofLines_flatMap]
  congr 1
  split
  · rfl
  · rw [summaryLine_eq]
    simp [ofLines, ← String.toList_inj]

/-- The counts in the report on check results for programs. -/
theorem get?_summary (results : List CheckResult) :
    ∃ summary, (checkJson results).get? "summary" = some summary ∧
      summary.get? "files" = some (.nat results.length) ∧
      summary.get? "errors" = some (.nat (totalErrors results)) ∧
      summary.get? "warnings" = some (.nat (totalWarnings results)) :=
  ⟨_, rfl, rfl, rfl, rfl⟩

/-- The path of a result. -/
theorem get?_path (result : CheckResult) :
    (resultJson result).get? "path" = some (.str result.path) :=
  rfl

end Report

/-- The report for people on files: a paragraph for each one, or for each that fails or is an object
file, and the counts. -/
theorem Host.checkPretty_results (host : Host) (options : ReportOptions) (files : List String) :
    Report.checkPretty options host.colorLevel (files.map host.result) =
      String.join ((files.filter fun file =>
        !options.quiet || (host.fails file || host.isObject file)).map fun file =>
          Report.paragraph options host.colorLevel (host.result file)) ++
      if options.quiet = true ∧ files.countP host.fails = 0 ∧ files.countP host.isObject = 0 then ""
      else "\n" ++ Report.totalsLine options host.colorLevel files.length (files.countP host.fails)
        (files.countP host.isObject) ++ "\n\n" := by
  have shown : (files.map host.result).filter
        (fun result => !options.quiet || result.hasIssues) =
      (files.filter fun file =>
        !options.quiet || (host.fails file || host.isObject file)).map host.result := by
    simp [List.filter_map, Function.comp_def, Host.hasIssues_result]
  rw [Report.checkPretty_eq, shown, List.map_map, List.length_map, Host.totalErrors_results,
    Host.totalWarnings_results]
  rfl

/-- What a run says of the files it has checked.  There is one number of files, one of those that
fail and one of object files, wherever it says them, and it goes through the files in order. -/
structure Host.Accounts (host : Host) (logger : Logger) (options : ReportOptions)
    (files : List String) (run : Run Nat) : Prop where
  /-- The last event that is logged has the totals. -/
  log : run.logs = files.flatMap (host.lines logger) ++
    (logger.line? .info "check_completed"
      [("files", .nat files.length), ("failed", .nat (files.countP host.fails))]).toList
  /-- The report for programs is a document with the totals and a record for each file. -/
  document : options.format = .json →
    ∃ document summary records, Json.read run.stdout = some document ∧
      document.get? "summary" = some summary ∧
      summary.get? "files" = some (.nat files.length) ∧
      summary.get? "errors" = some (.nat (files.countP host.fails)) ∧
      summary.get? "warnings" = some (.nat (files.countP host.isObject)) ∧
      document.get? "files" = some (.arr records) ∧
      records.map (·.get? "path") = files.map fun file => some (.str file)
  /-- The report for people is a paragraph for each file, or for each with something to say about
  it, and then a line with the totals in words, unless there is nothing to say at all.  The line has
  colour codes in it only where there are colours. -/
  paragraphs : options.format = .pretty →
    ∃ (paragraph : String → String) (line : String),
      (∀ file, ∃ rest, paragraph file = "\n  " ++ file ++ "\n" ++ rest) ∧
      Report.Decorates line
        (Report.totals files.length (files.countP host.fails) (files.countP host.isObject)) ∧
      (options.noColor = true ∨ host.colorLevel = 0 → line =
        Report.totals files.length (files.countP host.fails) (files.countP host.isObject)) ∧
      run.stdout =
        String.join ((files.filter fun file =>
          !options.quiet || (host.fails file || host.isObject file)).map paragraph) ++
        if options.quiet = true ∧ files.countP host.fails = 0 ∧ files.countP host.isObject = 0
        then ""
        else "\n" ++ line ++ "\n\n"

section

variable {host : Host} {paths : List String} {logger : Logger} {options : ReportOptions}
  {candidates : Candidates}

/-- **The accounts of a run agree**, as each of them counts the results. -/
theorem Host.accounts (accepting : logger.IsAccepting)
    (found : findScriptFiles host.root host.cwd paths = .ok candidates)
    (some : candidates.files ≠ []) :
    host.Accounts logger options candidates.files (host.runCheck paths options logger) where
  log := by
    rw [Host.runCheck_of_files accepting found some, Run.logs_showing, Host.loggedLines]
  document json := by
    rw [Host.stdout_eq_check accepting found some, Report.read_check json]
    obtain ⟨summary, member, number, errors, warnings⟩ :=
      Report.get?_summary (candidates.files.map host.result)
    rw [List.length_map] at number
    rw [Host.totalErrors_results] at errors
    rw [Host.totalWarnings_results] at warnings
    refine ⟨_, summary, _, rfl, member, number, errors, warnings,
      Report.get?_files _, ?_⟩
    simp [Report.get?_path, Host.path_result]
  paragraphs pretty := by
    rw [Host.stdout_eq_check accepting found some, Report.check, pretty]
    refine ⟨fun file => Report.paragraph options host.colorLevel (host.result file), _, ?_,
      Report.totalsLine_decorates options host.colorLevel _ _ _,
      fun plain => Report.totalsLine_of_plain options host.colorLevel plain _ _ _,
      host.checkPretty_results options candidates.files⟩
    intro file
    have begins := Report.exists_paragraph options host.colorLevel (host.result file)
    rwa [Host.path_result] at begins

/-- Without a path that fails in another way than that there is nothing, the exit code is one if
there is nothing at a path or a file fails. -/
theorem Host.verdict_eq
    (absent : ∀ written ∈ paths, ∀ fault, host.root.stat host.cwd written = .error fault →
      fault.code = "ENOENT")
    (found : findScriptFiles host.root host.cwd paths = .ok candidates) :
    host.verdict candidates =
      if (∃ written ∈ paths, (host.root.stat host.cwd written).isOk = false) ∨
        (∃ file ∈ candidates.files, host.fails file = true) then 1 else 0 := by
  have missing : candidates.missing ≠ [] ↔
      ∃ written ∈ paths, (host.root.stat host.cwd written).isOk = false := by
    rw [findScriptFiles_eq_ok absent] at found
    cases found
    simp [List.filter_eq_nil_iff]
  rw [verdict]
  simp only [missing]

/-- What a run ends in, complains about and logs does not depend on the report asked for. -/
theorem Host.runCheck_options (accepting : logger.IsAccepting) (other : ReportOptions) :
    (host.runCheck paths other logger).outcome = (host.runCheck paths options logger).outcome ∧
      (host.runCheck paths other logger).stderr = (host.runCheck paths options logger).stderr ∧
      (host.runCheck paths other logger).logs = (host.runCheck paths options logger).logs := by
  rcases found : findScriptFiles host.root host.cwd paths with fault | candidates
  · rw [runCheck_of_error found, runCheck_of_error found]
    exact ⟨rfl, rfl, rfl⟩
  · by_cases nothing : candidates.files = []
    · simp [runCheck_of_nothing found nothing]
    · simp [runCheck_of_files accepting found nothing]

/-- **The verdict of a check is right, and all accounts of it agree.**  With a logger that takes
every line, a run is broken off when a path fails in another way than that there is nothing.
Otherwise it ends in 1 if there is nothing at a path, or if a candidate can neither be read as a
script nor is an object file, and in 0 if not.  If there are candidates, the log and the report have
the same totals, with the candidates in order.  How the run ends, its complaints and its log are the
same for every report that is asked for. -/
theorem Host.runCheck_verdict (host : Host) (paths : List String) {logger : Logger}
    (accepting : logger.IsAccepting) (options : ReportOptions) :
    let run := host.runCheck paths options logger
    let stopped := ∃ written ∈ paths, ∃ fault,
      host.root.stat host.cwd written = .error fault ∧ fault.code ≠ "ENOENT"
    ((∃ fault, run.outcome = .error fault) ↔ stopped) ∧
    (¬ stopped → ∃ candidates, findScriptFiles host.root host.cwd paths = .ok candidates ∧
      run.outcome = .ok
        (if (∃ written ∈ paths, (host.root.stat host.cwd written).isOk = false) ∨
          (∃ file ∈ candidates.files, host.fails file = true) then 1 else 0) ∧
      (candidates.files ≠ [] → host.Accounts logger options candidates.files run)) ∧
    ∀ other : ReportOptions,
      (host.runCheck paths other logger).outcome = run.outcome ∧
      (host.runCheck paths other logger).stderr = run.stderr ∧
      (host.runCheck paths other logger).logs = run.logs := by
  intro run stopped
  have ends {candidates : Candidates}
      (found : findScriptFiles host.root host.cwd paths = .ok candidates) :
      run.outcome = .ok (host.verdict candidates) := by
    by_cases nothing : candidates.files = []
    · exact congrArg Run.outcome (Host.runCheck_of_nothing found nothing)
    · exact congrArg Run.outcome (Host.runCheck_of_files accepting found nothing)
  refine ⟨?_, ?_, Host.runCheck_options accepting⟩
  · refine Iff.trans ?_ findScriptFiles_eq_error_iff
    constructor
    · rintro ⟨fault, failed⟩
      rcases found : findScriptFiles host.root host.cwd paths with other | candidates
      · exact ⟨other, rfl⟩
      · rw [ends found] at failed
        cases failed
    · rintro ⟨fault, failed⟩
      exact ⟨.file fault, congrArg Run.outcome (Host.runCheck_of_error failed)⟩
  · intro goes
    have absent : ∀ written ∈ paths, ∀ fault, host.root.stat host.cwd written = .error fault →
        fault.code = "ENOENT" := by
      intro written mem fault failed
      by_contra other
      exact goes ⟨written, mem, fault, failed, other⟩
    have found := findScriptFiles_eq_ok absent
    refine ⟨_, found, ?_, Host.accounts accepting found⟩
    rw [ends found, Host.verdict_eq absent found]

end

/-- A host with a script that reads, one that is refused and an object file. -/
def mixedHost : Host where
  root := .directory [("w", .directory [("lib", .directory
    [("a.so", .file (Text.Utf8.encode "GROUP(libm.so.6)")), ("b.so", .file openGroup),
      ("c.so", .file elfMagic)])])]
  cwd := ["w"]
  timestamp := ""

/-- Three files, one of which is refused and one an object file, and a path that is missing: the
totals for programs and for people are the same. -/
theorem Host.runCheck_verdict_mixed :
    let logger := Logger.create "" none none fun _ => .ok ()
    let run (options : ReportOptions) := mixedHost.runCheck ["lib", "gone"] options logger
    logger.IsAccepting ∧ (run { format := .json }).outcome = .ok 1 ∧
    (∃ document summary records,
      Json.read (run { format := .json }).stdout = some document ∧
      document.get? "summary" = some summary ∧ summary.get? "files" = some (.nat 3) ∧
      summary.get? "errors" = some (.nat 1) ∧ summary.get? "warnings" = some (.nat 1) ∧
      document.get? "files" = some (.arr records) ∧
      records.map (·.get? "path") =
        [some (.str "/w/lib/a.so"), some (.str "/w/lib/b.so"), some (.str "/w/lib/c.so")]) ∧
    (∃ paragraphs, (run { format := .pretty }).stdout =
      paragraphs ++ "\n  Found 1 error and 1 warning in 3 files\n\n") ∧
    (run { quiet := true }).logs = (run { format := .json }).logs := by
  intro logger run
  have accepting : logger.IsAccepting := fun _ => rfl
  have absent : ∀ written ∈ ["lib", "gone"], ∀ fault,
      mixedHost.root.stat mixedHost.cwd written = .error fault → fault.code = "ENOENT" := by
    intro written mem fault failed
    simp only [List.mem_cons, List.not_mem_nil, or_false] at mem
    rcases mem with rfl | rfl
    · cases failed
    · cases failed
      rfl
  have files : Discovery.listed mixedHost.root mixedHost.cwd ["lib", "gone"] =
      ["/w/lib/a.so", "/w/lib/b.so", "/w/lib/c.so"] := by
    have brought : ["lib", "gone"].flatMap
        (Discovery.brought mixedHost.root mixedHost.cwd) =
          ["/w/lib/a.so", "/w/lib/b.so", "/w/lib/c.so"] := by
      decide +kernel
    rw [Discovery.listed, brought]
    apply Text.Increasing.sort_eraseDups
    unfold Text.Increasing
    decide
  have failing : ["/w/lib/a.so", "/w/lib/b.so", "/w/lib/c.so"].countP mixedHost.fails = 1 := by
    decide +kernel
  have objects : ["/w/lib/a.so", "/w/lib/b.so", "/w/lib/c.so"].countP mixedHost.isObject = 1 := by
    decide +kernel
  have told (options : ReportOptions) : (run options).outcome = .ok 1 ∧
      mixedHost.Accounts logger options ["/w/lib/a.so", "/w/lib/b.so", "/w/lib/c.so"]
        (run options) := by
    obtain ⟨-, goes, -⟩ :=
      Host.runCheck_verdict mixedHost ["lib", "gone"] accepting options
    obtain ⟨candidates, found, code, accounts⟩ := goes (by
      rintro ⟨written, mem, fault, failed, other⟩
      exact other (absent written mem fault failed))
    rw [findScriptFiles_eq_ok absent, files] at found
    cases found
    rw [if_pos (Or.inl ⟨"gone", by decide, rfl⟩)] at code
    exact ⟨code, accounts (by simp)⟩
  obtain ⟨-, -, others⟩ :=
    Host.runCheck_verdict mixedHost ["lib", "gone"] accepting { format := .json }
  refine ⟨accepting, (told _).1, ?_, ?_, (others { quiet := true }).2.2⟩
  · obtain ⟨document, summary, records, read, member, number, errors, warnings, list, paths⟩ :=
      (told { format := .json }).2.document rfl
    rw [failing] at errors
    rw [objects] at warnings
    exact ⟨document, summary, records, read, member, number, errors, warnings, list, paths⟩
  · obtain ⟨paragraph, line, -, -, plain, printed⟩ := (told { format := .pretty }).2.paragraphs rfl
    have counts : line = "  Found 1 error and 1 warning in 3 files" := by
      rw [plain (Or.inr rfl), failing, objects]
      decide
    rw [failing, if_neg (by decide), counts] at printed
    exact ⟨_, printed⟩

end LinkScript
