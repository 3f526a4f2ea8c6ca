import LinkScript.Files.Tree
import LinkScript.Script.Load

/-!
# Checking one file

`checkFile` says of a file which of three things it is: a script that reads, an object file that
is passed over with a warning, or something that gives exactly one error, either because it
cannot be read or because it is no well-formed script.  It ends in a fault only if the logger
does.

Real shared libraries have the same names as the scripts that stand in for them, and are told
apart by the four bytes with which every ELF object begins.
-/

namespace LinkScript

/-! ## Object files -/

/-- The bytes at the beginning of an ELF object. -/
def elfMagic : Bytes := [0x7F, 0x45, 0x4C, 0x46]

/-- Whether the contents of a file are an ELF object. -/
def isElf (contents : Bytes) : Bool := contents.startsWith elfMagic

/-- An object file is told by its first bytes. -/
theorem isElf_iff {contents : Bytes} : isElf contents = true ↔ elfMagic <+: contents :=
  List.isPrefixOf_iff_prefix

/-! ## Results -/

/-- What came of checking a file. -/
structure CheckResult where
  path : String
  script : Option Script := none
  errors : List Diagnostic := []
  warnings : List Diagnostic := []
  deriving Repr, DecidableEq

namespace CheckResult

/-- Whether a file gave an error. -/
def failed (result : CheckResult) : Bool := !result.errors.isEmpty

/-- Whether there is anything to say about a file. -/
def hasIssues (result : CheckResult) : Bool := result.failed || !result.warnings.isEmpty

/-- The result for a path from what was reported about it. -/
def ofCollector (path : String) (script : Option Script) (collector : Collector) : CheckResult :=
  ⟨path, script, collector.errors, collector.warnings⟩

end CheckResult

/-- The diagnostic of a file that is not read as a script. -/
def Diagnostic.ofFile (severity : Severity) (path message : String) : Diagnostic :=
  { severity, path, message }

/-- What checking a file with these contents gives. -/
def checkContents (path : String) (contents : Bytes) (logger : Logger) : Run CheckResult := do
  if isElf contents then
    let warning := Diagnostic.ofFile .warning path "Not a linker script (ELF object), skipped"
    return .ofCollector path none (({} : Collector).report warning)
  else
    let (outcome, collector) ←
      (readScript path (.bytes contents) (some Sink.keepAll) (some logger)).collect
    match outcome with
    | .ok script => return .ofCollector path (some script) collector
    | .error (.parse (.link _)) => return .ofCollector path none collector
    | .error fault => Run.fail fault

/-- What checking the file at a written path gives, from a working directory. -/
def checkFile (root : Tree) (cwd : Path) (path : String) (logger : Logger) : Run CheckResult :=
  match root.read cwd path with
  | .ok contents => checkContents path contents logger
  | .error fault =>
    let error := Diagnostic.ofFile .error path ("Error reading file: " ++ fault.message)
    return .ofCollector path none (({} : Collector).report error)

end LinkScript
