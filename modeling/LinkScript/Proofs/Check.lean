import LinkScript.Check
import LinkScript.Proofs.Script.Load
import LinkScript.Proofs.Script.Refusal

/-!
# What comes of the contents of a file

The three things that contents can be, each with the exact run that checking them is when the logger
takes every line.

* `collect_readScript_of_ok` and `collect_readScript_of_error`: a script that is read is logged, and
  one that is refused is logged and leaves the one diagnostic of its failure.
* `checkFile_of_read`, `checkContents_of_isElf`, `checkContents_of_ok` and `checkContents_of_error`:
  the result for the file.
* `parse_ok_or_link`: there is no fourth thing.
* `checkFile_eq` puts these together, with the file that cannot be read.
-/

namespace LinkScript

section

variable {path : String} {source : Bytes} {logger : Logger} {contents : Contents}
  {failure : LinkFailure}

/-- Every source is read or refused for a failure of its own. -/
theorem parse_ok_or_link (source : Bytes) :
    (∃ contents, parse source = .ok contents) ∨
      ∃ failure, parse source = .error (.link failure) := by
  cases outcome : parse source with
  | ok contents => exact Or.inl ⟨contents, rfl⟩
  | error fault =>
    obtain ⟨failure, rfl⟩ := exists_failure_of_parse outcome
    exact Or.inr ⟨failure, rfl⟩

/-! ## Reading under observation -/

/-- What is logged of a script that is read. -/
def parsedLines (logger : Logger) (path : String) (contents : Contents) : List String :=
  (logger.line? .debug "ld_script_parsed" (parsedMetadata path contents)).toList

/-- What is logged of a script that is refused. -/
def rejectedLines (logger : Logger) (path : String) (failure : LinkFailure) : List String :=
  (logger.line? .warn "ld_script_rejected" (rejectedMetadata path failure)).toList

/-- A script that is read is logged, and there are no diagnostics. -/
theorem collect_readScript_of_ok (accepting : logger.IsAccepting)
    (read : parse source = .ok contents) :
    (readScript path (.bytes source) (some Sink.keepAll) (some logger)).collect =
      Run.logging (parsedLines logger path contents) (.ok { contents with path }, {}) := by
  have run : readScript path (.bytes source) (some Sink.keepAll) (some logger) =
      ⟨[].map Event.reported ++ (parsedLines logger path contents).map Event.logged,
        .ok { contents with path }⟩ := by
    have handed : parse (ScriptData.bytes source).source = .ok contents := read
    rw [readScript_of_ok handed, attemptScript_of_ok handed, Logger.log?, Logger.log_eq accepting]
    exact Run.logging_bind_pure _ _ _ rfl
  rw [run, Run.collect_reported]

/-- A script that is refused is logged, and there is the one diagnostic of its failure. -/
theorem collect_readScript_of_error (accepting : logger.IsAccepting)
    (refused : parse source = .error (.link failure)) :
    (readScript path (.bytes source) (some Sink.keepAll) (some logger)).collect =
      Run.logging (rejectedLines logger path failure)
        (.error (.parse (.link failure)), ⟨[Diagnostic.ofFailure path failure]⟩) := by
  have run : readScript path (.bytes source) (some Sink.keepAll) (some logger) =
      ⟨[Diagnostic.ofFailure path failure].map Event.reported ++
        (rejectedLines logger path failure).map Event.logged,
        .error (.parse (.link failure))⟩ := by
    have handed : parse (ScriptData.bytes source).source = .error (.link failure) := refused
    rw [readScript_of_link handed, Logger.log?, Logger.log_eq accepting, Run.logging_bind]
    simp [Sink.report?, Sink.report, Sink.keepAll, rejectedLines, Run.emit, Run.fail, bind, Run.bind]
  rw [run, Run.collect_reported]

/-! ## Checking -/

/-- Checking a file that can be read is checking its contents. -/
theorem checkFile_of_read {root : Tree} {cwd : Path} (read : root.read cwd path = .ok source) :
    checkFile root cwd path logger = checkContents path source logger := by
  rw [checkFile, read]

/-- An object file gives one warning, and nothing is logged. -/
theorem checkContents_of_isElf (elf : isElf source) :
    checkContents path source logger = Run.logging []
      { path, warnings := [Diagnostic.ofFile .warning path
        "Not a linker script (ELF object), skipped"] } := by
  rw [checkContents, if_pos elf]
  rfl

/-- A script that reads gives the script. -/
theorem checkContents_of_ok (accepting : logger.IsAccepting) (other : ¬ isElf source)
    (read : parse source = .ok contents) :
    checkContents path source logger = Run.logging (parsedLines logger path contents)
      { path, script := some { contents with path } } := by
  rw [checkContents, if_neg other, collect_readScript_of_ok accepting read]
  exact Run.logging_bind_pure _ _ _ rfl

/-- A script that is refused gives the one error of its failure. -/
theorem checkContents_of_error (accepting : logger.IsAccepting) (other : ¬ isElf source)
    (refused : parse source = .error (.link failure)) :
    checkContents path source logger = Run.logging (rejectedLines logger path failure)
      { path, errors := [Diagnostic.ofFailure path failure] } := by
  rw [checkContents, if_neg other, collect_readScript_of_error accepting refused]
  exact Run.logging_bind_pure _ _ _ rfl

/-! ## The whole of it -/

/-- The result for a file from what reading it gives. -/
def CheckResult.ofRead (path : String) : Except FileFault Bytes → CheckResult
  | .error fault =>
    { path, errors := [Diagnostic.ofFile .error path ("Error reading file: " ++ fault.message)] }
  | .ok source =>
    if isElf source then
      { path, warnings := [Diagnostic.ofFile .warning path
        "Not a linker script (ELF object), skipped"] }
    else
      match parse source with
      | .ok contents => { path, script := some { contents with path } }
      | .error (.link failure) => { path, errors := [Diagnostic.ofFailure path failure] }
      | .error (.outOfBounds _) => { path }

/-- What is logged of a file from what reading it gives. -/
def readLines (logger : Logger) (path : String) : Except FileFault Bytes → List String
  | .error _ => []
  | .ok source =>
    if isElf source then []
    else
      match parse source with
      | .ok contents => parsedLines logger path contents
      | .error (.link failure) => rejectedLines logger path failure
      | .error (.outOfBounds _) => []

/-- **Checking a file logs and gives a result**, both by what reading the file gives. -/
theorem checkFile_eq (accepting : logger.IsAccepting) (root : Tree) (cwd : Path) (path : String) :
    checkFile root cwd path logger =
      Run.logging (readLines logger path (root.read cwd path))
        (CheckResult.ofRead path (root.read cwd path)) := by
  rcases read : root.read cwd path with fault | source
  · rw [checkFile, read]
    rfl
  · rw [checkFile_of_read read, readLines, CheckResult.ofRead]
    by_cases elf : isElf source
    · rw [if_pos elf, if_pos elf, checkContents_of_isElf elf]
    · rw [if_neg elf, if_neg elf]
      rcases parse_ok_or_link source with ⟨contents, accepted⟩ | ⟨failure, refused⟩
      · rw [accepted]
        exact checkContents_of_ok accepting elf accepted
      · rw [refused]
        exact checkContents_of_error accepting elf refused

end

end LinkScript
