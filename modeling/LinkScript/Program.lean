import LinkScript.Files.Discovery
import LinkScript.Report

/-!
# What the program does

The two jobs of the program, over a file tree that does not change while they run.  `runCheck`
looks at every candidate among the paths it is given and reports on all of them; `runInspect`
shows what one script says.  Each is a run that ends in the exit code.

Whatever a report looks like, the exit code, the complaints and the log are the same.
-/

namespace LinkScript

/-- Where the program runs: the file tree, the working directory, the variables that are set, the
level of colouring that the terminal takes, and the time. -/
structure Host where
  root : Tree
  cwd : Path
  env : Variables := {}
  colorLevel : Nat := 0
  timestamp : String

namespace Host

/-- The results for files, one after another. -/
def checkFiles (host : Host) (logger : Logger) : List String → Run (List CheckResult)
  | [] => return []
  | file :: rest => do
    let first ← checkFile host.root host.cwd file logger
    let others ← host.checkFiles logger rest
    return first :: others

/-- A complaint about every path that leads nowhere. -/
def complainMissing : List String → Run Unit
  | [] => return ()
  | path :: rest => do
    Run.complain ("Path not found: " ++ path)
    complainMissing rest

/-- What is logged when all files have been checked. -/
def completedMetadata (results : List CheckResult) : Fields Log.Value :=
  [("files", .nat results.length), ("failed", .nat (results.filter CheckResult.failed).length)]

/-- Checks every candidate among the given paths, and reports. -/
def runCheck (host : Host) (paths : List String) (options : ReportOptions) (logger : Logger) :
    Run Nat := do
  let candidates ← Run.ofExcept ((findScriptFiles host.root host.cwd paths).mapError Fault.file)
  complainMissing candidates.missing
  let missingCode := if candidates.missing.isEmpty then 0 else 1
  if candidates.files.isEmpty then
    unless options.quiet do
      Run.printLine "No files found to check"
    return missingCode
  else
    let results ← host.checkFiles logger candidates.files
    logger.log .info "check_completed" (completedMetadata results)
    Run.print (Report.check options host.colorLevel results)
    return max (Report.exitCode results) missingCode

/-- A complaint about a file for every error in it. -/
def complainErrors (file : String) : List Diagnostic → Run Unit
  | [] => return ()
  | error :: rest => do
    Run.complain (file ++ ": " ++ error.message)
    complainErrors file rest

/-- Shows what the script with these contents says.  `file` is what its path is called in
complaints. -/
def inspectContents (host : Host) (file path : String) (contents : Bytes)
    (options : ReportOptions) (logger : Logger) : Run Nat := do
  if isElf contents then
    Run.complain (file ++ ": not a linker script (ELF object)")
    return 1
  else
    let (outcome, collector) ←
      (readScript path (.bytes contents) (some Sink.keepAll) (some logger)).collect
    match outcome with
    | .ok script =>
      Run.print (Report.script options host.colorLevel script)
      return 0
    | .error (.parse (.link _)) =>
      complainErrors file collector.errors
      return 1
    | .error fault => Run.fail fault

/-- Shows what the script at a written path says. -/
def runInspect (host : Host) (file : String) (options : ReportOptions) (logger : Logger) :
    Run Nat := do
  let path := (Path.resolve host.cwd file).render
  let contents ← Run.ofExcept ((host.root.read host.cwd path).mapError Fault.file)
  host.inspectContents file path contents options logger

end Host

end LinkScript
