import LinkScript.Check
import LinkScript.Report.Color
import LinkScript.Settings

/-!
# Reports

What the program prints about the files it has looked at, for people or for programs.  For people
every file has a paragraph, with a count at the end; if nothing but trouble is asked for, files
without any are left out, and so is the count when there is no trouble at all.  For programs
there is one JSON document, whatever else is asked for.

A report is a function from results to text, so the text says all there is to say about it.
-/

namespace LinkScript

/-- What a report is to look like. -/
structure ReportOptions where
  format : OutputFormat := .pretty
  quiet : Bool := false
  noColor : Bool := false
  deriving Repr, DecidableEq

namespace Report

/-! ## Words -/

/-- The text in a colour, unless the options or the terminal are against it. -/
def paint (options : ReportOptions) (level : Nat) (color : Color) (text : String) : String :=
  if options.noColor then text else color.paint level text

/-- A number of things. -/
def countOf (count : Nat) (one many : String) : String :=
  toString count ++ " " ++ (if count = 1 then one else many)

/-- The contents of a script in a few words. -/
def describe (script : Script) : String :=
  (match script.cpuArch with
    | some arch => arch.name
    | none => "no architecture")
    ++ ", " ++ countOf script.entries.length "library" "libraries"

/-- Lines as text, each ended by a line break. -/
def ofLines (lines : List String) : String := String.join (lines.map (· ++ "\n"))

/-! ## Check results for people -/

/-- The paragraph about a file. -/
def checkLines (options : ReportOptions) (level : Nat) (result : CheckResult) : List String :=
  let mark (color : Color) (sign : String) : String :=
    "    " ++ paint options level color sign
  ["", "  " ++ result.path]
    ++ (match result.script with
      | some script => [mark .green "✓" ++ " " ++ describe script]
      | none => [])
    ++ result.errors.map (fun error => mark .red "✗" ++ " error  " ++ error.message)
    ++ result.warnings.map (fun warning => mark .yellow "⚠" ++ " warn   " ++ warning.message)

/-- How many errors there are in all. -/
def totalErrors (results : List CheckResult) : Nat :=
  (results.flatMap (·.errors)).length

/-- How many warnings there are in all. -/
def totalWarnings (results : List CheckResult) : Nat :=
  (results.flatMap (·.warnings)).length

/-- The line with the counts. -/
def summaryLine (options : ReportOptions) (level : Nat) (results : List CheckResult) : String :=
  let errors := totalErrors results
  let warnings := totalWarnings results
  let files := countOf results.length "file" "files"
  if errors = 0 ∧ warnings = 0 then
    paint options level .green ("  ✓ All " ++ files ++ " passed")
  else
    paint options level .gray
      ("  Found " ++ countOf errors "error" "errors" ++ " and "
        ++ countOf warnings "warning" "warnings" ++ " in " ++ files)

/-- The report on check results for people. -/
def checkPretty (options : ReportOptions) (level : Nat) (results : List CheckResult) : String :=
  let shown := if options.quiet then results.filter CheckResult.hasIssues else results
  let summary :=
    if options.quiet ∧ totalErrors results = 0 ∧ totalWarnings results = 0 then []
    else ["", summaryLine options level results, ""]
  ofLines (shown.flatMap (checkLines options level) ++ summary)

/-! ## Check results for programs -/

/-- A position as JSON. -/
def positionJson (position : Position) : Json :=
  .obj [("line", .int position.line), ("column", .int position.column)]

/-- A library as JSON. -/
def entryJson (entry : Entry) : Json :=
  .obj [("path", .str entry.path), ("needed", .bool entry.needed)]

/-- An error as JSON; one without a code has no member for it. -/
def errorJson (error : Diagnostic) : Json :=
  .obj ([("message", .str error.message)]
    ++ (match error.code with
      | some code => [("code", .str code)]
      | none => [])
    ++ [("position", match error.position with
      | some position => positionJson position
      | none => .null)])

/-- A warning as JSON. -/
def warningJson (warning : Diagnostic) : Json := .obj [("message", .str warning.message)]

/-- The architecture of a script as JSON. -/
def archJson (arch : Option CpuArch) : Json := .strOrNull (arch.map CpuArch.name)

/-- The result for a file as JSON. -/
def resultJson (result : CheckResult) : Json :=
  .obj [("path", .str result.path),
    ("cpuArch", archJson (result.script.bind (·.cpuArch))),
    ("entries", match result.script with
      | some script => .arr (script.entries.map entryJson)
      | none => .null),
    ("errors", .arr (result.errors.map errorJson)),
    ("warnings", .arr (result.warnings.map warningJson))]

/-- The report on check results for programs. -/
def checkJson (results : List CheckResult) : Json :=
  .obj [("summary", .obj [("files", .nat results.length), ("errors", .nat (totalErrors results)),
      ("warnings", .nat (totalWarnings results))]),
    ("files", .arr (results.map resultJson))]

/-- The report on check results. -/
def check (options : ReportOptions) (level : Nat) (results : List CheckResult) : String :=
  match options.format with
  | .json => (checkJson results).pretty ++ "\n"
  | .pretty => checkPretty options level results

/-- The exit code for check results: one if any file gave an error. -/
def exitCode (results : List CheckResult) : Nat := if results.any CheckResult.failed then 1 else 0

/-! ## One script -/

/-- A script as JSON. -/
def scriptJson (script : Script) : Json :=
  .obj [("path", .str script.path), ("cpuArch", archJson script.cpuArch),
    ("entries", .arr (script.entries.map entryJson))]

/-- The line about a library. -/
def entryLine (options : ReportOptions) (level : Nat) (entry : Entry) : String :=
  "    " ++ (if entry.needed then "needed   " else paint options level .gray "as-needed")
    ++ "  " ++ entry.path

/-- The lines about a script for people. -/
def scriptLines (options : ReportOptions) (level : Nat) (script : Script) : List String :=
  ["  " ++ paint options level .cyan script.path,
    "    arch       " ++ (match script.cpuArch with
      | some arch => arch.name
      | none => paint options level .gray "(none)")]
    ++ script.entries.map (entryLine options level)

/-- The report on a script. -/
def script (options : ReportOptions) (level : Nat) (script : Script) : String :=
  match options.format with
  | .json => (scriptJson script).pretty ++ "\n"
  | .pretty => ofLines (scriptLines options level script)

end Report

end LinkScript
