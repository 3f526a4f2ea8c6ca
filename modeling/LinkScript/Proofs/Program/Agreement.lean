import LinkScript.Program
import LinkScript.Proofs.Check
import LinkScript.Proofs.Files.Path
import LinkScript.Proofs.Report.Records

/-!
# Checking a file and showing it agree

A single file can be checked, and what it says can be shown.  The two go to the file by different
ways, read it separately and print different documents.

* `Host.IsProper`: what every host has, a directory as its root and a working directory that is
  given by names.
* `findScriptFiles_of_file`, `Host.IsProper.read_resolve` and `Host.runInspect_eq`: both jobs come
  to the contents of the file.
* `Run.Ends` says how a run ends and what is on its two output streams.  `Host.runCheck_ends` and
  the three cases of `Host.inspectContents` say this of the two jobs.
* `check_agrees_with_inspect`: what the two let be seen is the same.
-/

namespace LinkScript

/-! ## To the file -/

/-- What is true of every host: the file tree begins with a directory, and the working directory is
given by the names that lead to it. -/
structure Host.IsProper (host : Host) : Prop where
  root : host.root.IsDirectory
  cwd : Path.IsPlain host.cwd

section

variable {root : Tree} {cwd : Path} {written : String} {contents : Bytes}

/-- A written path that means a file brings the path of that file, and nothing is missing. -/
theorem findScriptFiles_of_file
    (regular : root.locate (Path.resolve cwd written) = .ok (.file contents)) :
    findScriptFiles root cwd [written] = .ok ⟨[(Path.resolve cwd written).render], []⟩ := by
  have brought : Candidates.gather root cwd [written] =
      .ok ⟨[(Path.resolve cwd written).render], []⟩ := by
    rw [Candidates.gather, Candidates.ofPath, regular]
    rfl
  have sorted : Text.sort [(Path.resolve cwd written).render].eraseDups =
      [(Path.resolve cwd written).render] := by
    simp [Text.sort, List.eraseDups_cons]
  rw [findScriptFiles, brought]
  exact congrArg (fun files => Except.ok (Candidates.mk files [])) sorted

/-- What a written path means is read at the path of that place. -/
theorem Host.IsProper.read_resolve {host : Host} (proper : host.IsProper)
    (regular : host.root.locate (Path.resolve host.cwd written) = .ok (.file contents)) :
    host.root.read host.cwd (Path.resolve host.cwd written).render = .ok contents := by
  rw [Tree.read_render proper.root host.cwd (Path.isPlain_resolve proper.cwd written), regular]

end

/-! ## How a run ends -/

/-- How a run ends: its exit code, and what is on the two output streams, log lines aside. -/
structure Run.Ends (run : Run Nat) (code : Nat) (out err : String) : Prop where
  outcome : run.outcome = .ok code
  stdout : run.stdout = out
  stderr : run.stderr = err

/-- Log lines do not matter for how a run ends. -/
theorem Run.ends_of_logged (lines : List String) {events : List Event} {code : Nat}
    {out err : String} (ends : Run.Ends ⟨events, .ok code⟩ code out err) :
    Run.Ends ⟨lines.map Event.logged ++ events, .ok code⟩ code out err where
  outcome := rfl
  stdout := (Run.outText_logged_append lines events).trans ends.stdout
  stderr := (Run.stderr_logged_append lines events _).trans ends.stderr

/-- A run that prints. -/
theorem Run.ends_printed (text : String) (code : Nat) :
    Run.Ends ⟨[.printed text], .ok code⟩ code text "" where
  outcome := rfl
  stdout := by simp [Run.stdout, Run.outText]
  stderr := by simp [Run.stderr]

/-- A run that complains. -/
theorem Run.ends_complained (text : String) (code : Nat) :
    Run.Ends ⟨[.complained text], .ok code⟩ code "" text where
  outcome := rfl
  stdout := by simp [Run.stdout, Run.outText]
  stderr := by simp [Run.stderr]

/-! ## The two jobs -/

namespace Host

section

variable {host : Host} {file path : String} {logger : Logger} {contents : Bytes}
  {options : ReportOptions}

/-- Checking a single file ends in the exit code of its result, with the report on it printed. -/
theorem runCheck_ends {lines : List String} {result : CheckResult}
    (accepting : logger.IsAccepting)
    (found : findScriptFiles host.root host.cwd [file] = .ok ⟨[path], []⟩)
    (checked : checkFile host.root host.cwd path logger = Run.logging lines result) :
    (host.runCheck [file] options logger).Ends (Report.exitCode [result])
      (Report.check options host.colorLevel [result]) "" := by
  have results : host.checkFiles logger [path] = Run.logging lines [result] := by
    rw [checkFiles, checked]
    exact Run.logging_bind_pure _ _ _ rfl
  have completed := Logger.log_eq accepting .info "check_completed" (completedMetadata [result])
  have run : host.runCheck [file] options logger =
      host.checkFiles logger [path] >>= fun results => do
        logger.log .info "check_completed" (completedMetadata results)
        Run.print (Report.check options host.colorLevel results)
        return max (Report.exitCode results) 0 := by
    rw [runCheck, found]
    rfl
  rw [run, results, Run.logging_bind, completed, Run.logging_bind, Nat.max_zero]
  exact Run.ends_of_logged _ (Run.ends_of_logged _ (Run.ends_printed _ _))

/-- Showing a file comes to showing its contents. -/
theorem runInspect_eq
    (read : host.root.read host.cwd (Path.resolve host.cwd file).render = .ok contents) :
    host.runInspect file options logger =
      host.inspectContents file (Path.resolve host.cwd file).render contents options logger := by
  rw [runInspect, read]
  rfl

/-- An object file is refused, and nothing is printed. -/
theorem inspectContents_of_isElf (elf : isElf contents) :
    (host.inspectContents file path contents options logger).Ends 1 ""
      (file ++ ": not a linker script (ELF object)" ++ "\n") := by
  rw [inspectContents, if_pos elf]
  exact Run.ends_complained _ 1

/-- A script that reads is printed. -/
theorem inspectContents_of_ok {script : Contents} (accepting : logger.IsAccepting)
    (other : ¬ isElf contents) (read : parse contents = .ok script) :
    (host.inspectContents file path contents options logger).Ends 0
      (Report.script options host.colorLevel { script with path }) "" := by
  rw [inspectContents, if_neg other, collect_readScript_of_ok accepting read]
  exact Run.ends_of_logged _ (Run.ends_printed _ 0)

/-- A script that is refused is complained about, and nothing is printed. -/
theorem inspectContents_of_error {failure : LinkFailure} (accepting : logger.IsAccepting)
    (other : ¬ isElf contents) (refused : parse contents = .error (.link failure)) :
    (host.inspectContents file path contents options logger).Ends 1 ""
      (file ++ ": " ++ failure.message ++ "\n") := by
  rw [inspectContents, if_neg other, collect_readScript_of_error accepting refused]
  exact Run.ends_of_logged _ (Run.ends_complained _ 1)

end

end Host

/-! ## The two documents -/

namespace Report

/-- The files of a report are the results, one by one. -/
theorem get?_files (results : List CheckResult) :
    (checkJson results).get? "files" = some (.arr (results.map resultJson)) :=
  rfl

/-- A script is described alike wherever it is reported on. -/
theorem get?_resultJson (script : Script)
    (errors warnings : List Diagnostic) :
    ∀ name ∈ ["path", "cpuArch", "entries"], ∃ value,
      (scriptJson script).get? name = some value ∧
        (resultJson ⟨script.path, some script, errors, warnings⟩).get? name =
          some value := by
  intro name mem
  simp only [List.mem_cons, List.not_mem_nil, or_false] at mem
  rcases mem with rfl | rfl | rfl <;> exact ⟨_, rfl, rfl⟩

/-- The errors and the warnings of a result. -/
theorem get?_errors (result : CheckResult) :
    (resultJson result).get? "errors" =
        some (.arr (result.errors.map errorJson)) ∧
      (resultJson result).get? "warnings" =
        some (.arr (result.warnings.map warningJson)) :=
  ⟨rfl, rfl⟩

/-- The message of an error. -/
theorem get?_message (error : Diagnostic) :
    (errorJson error).get? "message" = some (.str error.message) :=
  rfl

end Report

/-- What is printed when a single file is checked for programs, and the exit code. -/
theorem Host.runCheck_document {host : Host} {file path : String} {logger : Logger}
    {options : ReportOptions} {lines : List String} {result : CheckResult}
    (accepting : logger.IsAccepting)
    (found : findScriptFiles host.root host.cwd [file] = .ok ⟨[path], []⟩)
    (json : options.format = .json)
    (checked : checkFile host.root host.cwd path logger = Run.logging lines result) :
    ∃ document, Json.read (host.runCheck [file] options logger).stdout = some document ∧
      document.get? "files" = some (.arr [Report.resultJson result]) ∧
      (host.runCheck [file] options logger).outcome = .ok (Report.exitCode [result]) := by
  have ends : (host.runCheck [file] options logger).Ends _ _ _ :=
    Host.runCheck_ends accepting found checked
  refine ⟨_, ?_, Report.get?_files [result], ends.outcome⟩
  rw [ends.stdout, Report.read_check json]

/-- **Checking a file and showing it agree.**  The path of a regular file is checked, and what the
file says is shown, both for programs and with a logger that takes every line.

What the check prints is a document with one result.  An object file gives a warning and no error,
and showing it ends in 1 with nothing printed.  For any other file the exit codes are the same.
If they are 0, there is neither an error nor a warning, and what is shown is an object with the
path, the architecture and the entries of the result.  If they are 1, nothing is shown, and the
message of the one error is the complaint, behind the path as it was given. -/
theorem check_agrees_with_inspect {host : Host} (proper : host.IsProper) {file : String}
    {contents : Bytes}
    (regular : host.root.locate (Path.resolve host.cwd file) = .ok (.file contents))
    {logger : Logger} (accepting : logger.IsAccepting) {checking showing : ReportOptions}
    (checkJson : checking.format = .json) (showJson : showing.format = .json) :
    let checked := host.runCheck [file] checking logger
    let shown := host.runInspect file showing logger
    ∃ document result, Json.read checked.stdout = some document ∧
      document.get? "files" = some (.arr [result]) ∧
      (elfMagic <+: contents →
        checked.outcome = .ok 0 ∧ result.get? "errors" = some (.arr []) ∧
          (∃ warning, result.get? "warnings" = some (.arr [warning])) ∧
          shown.outcome = .ok 1 ∧ shown.stdout = "") ∧
      (¬ elfMagic <+: contents →
        (checked.outcome = .ok 0 ∧ shown.outcome = .ok 0 ∧
          result.get? "errors" = some (.arr []) ∧ result.get? "warnings" = some (.arr []) ∧
          ∃ object, Json.read shown.stdout = some object ∧
            ∀ name ∈ ["path", "cpuArch", "entries"], ∃ value,
              object.get? name = some value ∧ result.get? name = some value) ∨
        (checked.outcome = .ok 1 ∧ shown.outcome = .ok 1 ∧ shown.stdout = "" ∧
          ∃ error message, result.get? "errors" = some (.arr [error]) ∧
            error.get? "message" = some (.str message) ∧
            shown.stderr = file ++ ": " ++ message ++ "\n")) := by
  have found := findScriptFiles_of_file regular
  have read := proper.read_resolve regular
  dsimp only
  rw [Host.runInspect_eq read]
  generalize (Path.resolve host.cwd file).render = path at *
  have check {lines : List String} {result : CheckResult}
      (checked : checkContents path contents logger = Run.logging lines result) :=
    Host.runCheck_document accepting found checkJson ((checkFile_of_read read).trans checked)
  by_cases elf : isElf contents
  · have magic := isElf_iff.mp elf
    obtain ⟨document, printed, files, code⟩ := check (checkContents_of_isElf elf)
    have shown : (host.inspectContents file path contents showing logger).Ends 1 "" _ :=
      Host.inspectContents_of_isElf elf
    refine ⟨document, _, printed, files, fun _ => ?_, fun other => absurd magic other⟩
    obtain ⟨errors, warnings⟩ := Report.get?_errors
      { path, warnings := [Diagnostic.ofFile .warning path
        "Not a linker script (ELF object), skipped"] }
    exact ⟨code, errors, ⟨_, warnings⟩, shown.outcome, shown.stdout⟩
  · have other : ¬ elfMagic <+: contents := mt isElf_iff.mpr elf
    rcases parse_ok_or_link contents with ⟨script, accepted⟩ | ⟨failure, refused⟩
    · obtain ⟨document, printed, files, code⟩ :=
        check (checkContents_of_ok accepting elf accepted)
      have shown : (host.inspectContents file path contents showing logger).Ends 0 _ "" :=
        Host.inspectContents_of_ok accepting elf accepted
      refine ⟨document, _, printed, files, fun magic => absurd magic other, fun _ => Or.inl ?_⟩
      obtain ⟨errors, warnings⟩ := Report.get?_errors
        { path, script := some { script with path } }
      have alike := Report.get?_resultJson { script with path } [] []
      refine ⟨code, shown.outcome, errors, warnings, _, ?_, alike⟩
      rw [shown.stdout, Report.read_script showJson]
    · obtain ⟨document, printed, files, code⟩ :=
        check (checkContents_of_error accepting elf refused)
      have shown : (host.inspectContents file path contents showing logger).Ends 1 "" _ :=
        Host.inspectContents_of_error accepting elf refused
      refine ⟨document, _, printed, files, fun magic => absurd magic other, fun _ => Or.inr ?_⟩
      obtain ⟨errors, -⟩ := Report.get?_errors
        { path, errors := [Diagnostic.ofFailure path failure] }
      have message := Report.get?_message (Diagnostic.ofFailure path failure)
      exact ⟨code, shown.outcome, shown.stdout, _, _, errors, message, shown.stderr⟩

/-- A script whose group is not closed. -/
def openGroup : Bytes := Text.Utf8.encode "GROUP(libm.so.6"

/-- A script with an architecture and with libraries of both kinds. -/
def fullScript : Bytes :=
  Text.Utf8.encode "OUTPUT_FORMAT(elf64-x86-64) GROUP(libc.so.6 AS_NEEDED(ld.so.2))"

/-- A host with both scripts and an object file in the directory next to its working directory. -/
def stubHost : Host where
  root := .directory [("usr", .directory [("bin", .directory []), ("lib", .directory
    [("libc.so", .file fullScript), ("libm.so", .file openGroup), ("libz.so", .file elfMagic)])])]
  cwd := ["usr", "bin"]
  timestamp := ""

/-- A script that reads is shown as it is checked, one that is refused is complained about with the
message of its one error, and an object file is passed over by the check and refused when shown. -/
theorem check_agrees_with_inspect_stubs :
    let logger := Logger.create "" none none fun _ => .ok ()
    let options : ReportOptions := { format := .json }
    let checked (file : String) := stubHost.runCheck [file] options logger
    let shown (file : String) := stubHost.runInspect file options logger
    let regular (file : String) (contents : Bytes) :=
      stubHost.root.locate (Path.resolve stubHost.cwd file) = .ok (.file contents)
    stubHost.IsProper ∧ logger.IsAccepting ∧
    (regular "../lib/libc.so" fullScript ∧
      (checked "../lib/libc.so").outcome = .ok 0 ∧ (shown "../lib/libc.so").outcome = .ok 0 ∧
      (shown "../lib/libc.so").stdout =
        "\x7b\n  \"path\": \"/usr/lib/libc.so\",\n  \"cpuArch\": \"x86_64\",\n" ++
          "  \"entries\": [\n" ++
          "    \x7b\n      \"path\": \"libc.so.6\",\n      \"needed\": true\n    \x7d,\n" ++
          "    \x7b\n      \"path\": \"ld.so.2\",\n      \"needed\": false\n    \x7d\n" ++
          "  ]\n\x7d\n" ∧
      ∃ document result object, Json.read (checked "../lib/libc.so").stdout = some document ∧
        document.get? "files" = some (.arr [result]) ∧
        Json.read (shown "../lib/libc.so").stdout = some object ∧
        ∀ name ∈ ["path", "cpuArch", "entries"], ∃ value,
          object.get? name = some value ∧ result.get? name = some value) ∧
    (regular "../lib/libm.so" openGroup ∧
      (checked "../lib/libm.so").outcome = .ok 1 ∧ (shown "../lib/libm.so").outcome = .ok 1 ∧
      (shown "../lib/libm.so").stdout = "" ∧
      ∃ document result error message, Json.read (checked "../lib/libm.so").stdout = some document ∧
        document.get? "files" = some (.arr [result]) ∧
        result.get? "errors" = some (.arr [error]) ∧
        error.get? "message" = some (.str message) ∧
        (shown "../lib/libm.so").stderr = "../lib/libm.so" ++ ": " ++ message ++ "\n") ∧
    regular "../lib/libz.so" elfMagic ∧
      (checked "../lib/libz.so").outcome = .ok 0 ∧ (shown "../lib/libz.so").outcome = .ok 1 ∧
      (shown "../lib/libz.so").stdout = "" := by
  intro logger options checked shown regular
  have proper : stubHost.IsProper := by
    refine ⟨⟨_, rfl⟩, fun name mem => ?_⟩
    simp only [stubHost, List.mem_cons, List.not_mem_nil, or_false] at mem
    rcases mem with rfl | rfl <;> exact ⟨by decide, by decide, by decide, by decide⟩
  have accepting : logger.IsAccepting := fun _ => rfl
  have json : options.format = .json := rfl
  refine ⟨proper, accepting, ⟨rfl, ?_⟩, ⟨rfl, ?_⟩, rfl, ?_⟩
  · have there : regular "../lib/libc.so" fullScript := rfl
    obtain ⟨document, result, printed, files, -, agree⟩ :=
      check_agrees_with_inspect proper there accepting json json
    have other : ¬ elfMagic <+: fullScript := mt isElf_iff.mpr (by decide +kernel)
    have passed : (checked "../lib/libc.so").outcome ≠ .ok 1 := by decide +kernel
    rcases agree other with ⟨code, code', -, -, object, read, alike⟩ | ⟨failed, -⟩
    · exact ⟨code, code', by decide +kernel, document, result, object, printed, files, read, alike⟩
    · exact absurd failed passed
  · have there : regular "../lib/libm.so" openGroup := rfl
    obtain ⟨document, result, printed, files, -, agree⟩ :=
      check_agrees_with_inspect proper there accepting json json
    have other : ¬ elfMagic <+: openGroup := mt isElf_iff.mpr (by decide +kernel)
    have failed : (checked "../lib/libm.so").outcome ≠ .ok 0 := by decide +kernel
    rcases agree other with ⟨passed, -⟩ | ⟨code, code', nothing, error, message, errors, text, line⟩
    · exact absurd passed failed
    · exact ⟨code, code', nothing, document, result, error, message, printed, files, errors, text,
        line⟩
  · have there : regular "../lib/libz.so" elfMagic := rfl
    obtain ⟨document, result, -, -, agree, -⟩ :=
      check_agrees_with_inspect proper there accepting json json
    obtain ⟨code, -, -, code', nothing⟩ := agree (List.prefix_refl _)
    exact ⟨code, code', nothing⟩

end LinkScript
