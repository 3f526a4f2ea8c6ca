import LinkScript.Proofs.Json.RoundTrip
import LinkScript.Report
import Mathlib.Algebra.GroupWithZero.Nat

/-!
# What a report for programs carries

A report for programs is a text, and whoever reads it gets back all that it promises to carry.

* `FileRecord` is what is carried of the result for a file, and `CheckRecord` of a whole check.
* `Json.member?`, `Json.items?` and their like read a value by its shape, and `readFile?` and
  `readReport?` read records with them, by the names of the members alone.
* `readFile?_resultJson` and `readReport?_check`: a written result is read back, and a whole report.
* `resultJson_bare`: nothing else is carried.  A result that is made anew from its record is
  reported on in the same way.
* `check_recovers`: so two lists of results have the same text exactly if their records are the
  same.
-/

namespace LinkScript

/-! ## Values by their shape -/

namespace Json

variable {α : Type}

/-- A text. -/
def text? : Json → Option String
  | str text => some text
  | _ => none

/-- A truth value. -/
def truth? : Json → Option Bool
  | bool value => some value
  | _ => none

/-- A natural number. -/
def count? : Json → Option Nat
  | num value => value.toNat?
  | _ => none

/-- An integer. -/
def whole? : Json → Option Int
  | num value => value.toInt?
  | _ => none

/-- The items of an array, each of them read. -/
def items? (read : Json → Option α) : Json → Option (List α)
  | arr items => items.mapM read
  | _ => none

/-- Nothing for `null`, and any other value read. -/
def orNull? (read : Json → Option α) : Json → Option (Option α)
  | null => some none
  | value => (read value).map some

/-- The member with a name, read. -/
def member? (read : Json → Option α) (name : String) (json : Json) : Option α :=
  (json.get? name).bind read

/-- The member with a name, read, or nothing if there is no such member. -/
def optional? (read : Json → Option α) (name : String) (json : Json) : Option (Option α) :=
  match json.get? name with
  | some value => (read value).map some
  | none => some none

/-- A member is read as the value that it has. -/
theorem member?_of_get? {read : Json → Option α} {name : String} {json value : Json} {found : α}
    (there : json.get? name = some value) (reads : read value = some found) :
    json.member? read name = some found := by
  rw [member?, there, Option.bind_some, reads]

/-- Items that are each read as something are read as all of this, in order. -/
theorem items?_map {β : Type} {read : Json → Option α} {write : β → Json} {view : β → α}
    (each : ∀ item, read (write item) = some (view item)) (items : List β) :
    items? read (arr (items.map write)) = some (items.map view) := by
  rw [items?]
  induction items with
  | nil => rfl
  | cons first rest ih =>
    rw [List.map_cons, List.mapM_cons, each, ih]
    rfl

end Json

namespace Report

/-! ## What is carried -/

/-- What is carried of an error. -/
structure ErrorRecord where
  message : String
  code : Option String
  position : Option Position
  deriving DecidableEq

/-- What is carried of the result for a file.  There are entries only if there is a script, and an
architecture only if there is a script that names one. -/
structure FileRecord where
  path : String
  cpuArch : Option CpuArch
  entries : Option (List (String × Bool))
  errors : List ErrorRecord
  warnings : List String
  deriving DecidableEq

/-- What is carried of a check: how many results, errors and warnings there are, and the results. -/
structure CheckRecord where
  results : Nat
  errors : Nat
  warnings : Nat
  files : List FileRecord
  deriving DecidableEq

/-- What is carried of a library. -/
def entryRecord (entry : Entry) : String × Bool := (entry.path, entry.needed)

/-- An error, as it is carried. -/
def ErrorRecord.ofDiagnostic (error : Diagnostic) : ErrorRecord :=
  ⟨error.message, error.code, error.position⟩

/-- A result, as it is carried. -/
def FileRecord.ofResult (result : CheckResult) : FileRecord where
  path := result.path
  cpuArch := result.script.bind (·.cpuArch)
  entries := result.script.map fun script => script.entries.map entryRecord
  errors := result.errors.map .ofDiagnostic
  warnings := result.warnings.map (·.message)

/-- The results of a check, as they are carried. -/
def CheckRecord.ofResults (results : List CheckResult) : CheckRecord where
  results := results.length
  errors := (results.map fun result => result.errors.length).sum
  warnings := (results.map fun result => result.warnings.length).sum
  files := results.map .ofResult

/-! ## How it is read -/

/-- A position. -/
def readPosition? (json : Json) : Option Position := do
  return ⟨← json.member? Json.whole? "line", ← json.member? Json.whole? "column"⟩

/-- A library. -/
def readEntry? (json : Json) : Option (String × Bool) := do
  return (← json.member? Json.text? "path", ← json.member? Json.truth? "needed")

/-- An error. -/
def readError? (json : Json) : Option ErrorRecord := do
  return {
    message := ← json.member? Json.text? "message"
    code := ← json.optional? Json.text? "code"
    position := ← json.member? (Json.orNull? readPosition?) "position" }

/-- An architecture by its name. -/
def readArch? (json : Json) : Option CpuArch := json.text?.bind CpuArch.ofName?

/-- A result. -/
def readFile? (json : Json) : Option FileRecord := do
  return {
    path := ← json.member? Json.text? "path"
    cpuArch := ← json.member? (Json.orNull? readArch?) "cpuArch"
    entries := ← json.member? (Json.orNull? (Json.items? readEntry?)) "entries"
    errors := ← json.member? (Json.items? readError?) "errors"
    warnings := ← json.member? (Json.items? (Json.member? Json.text? "message")) "warnings" }

/-- The document of a check. -/
def readCheck? (json : Json) : Option CheckRecord := do
  return {
    results := ← json.member? (Json.member? Json.count? "files") "summary"
    errors := ← json.member? (Json.member? Json.count? "errors") "summary"
    warnings := ← json.member? (Json.member? Json.count? "warnings") "summary"
    files := ← json.member? (Json.items? readFile?) "files" }

/-- The text of a report on a check. -/
def readReport? (text : String) : Option CheckRecord := (Json.read text).bind readCheck?

/-! ## Reading back -/

/-- A position is read back. -/
theorem readPosition?_positionJson (position : Position) :
    readPosition? (positionJson position) = some position := by
  have line : (positionJson position).member? Json.whole? "line" = some position.line :=
    Json.member?_of_get? rfl (Decimal.toInt?_ofInt _)
  have column : (positionJson position).member? Json.whole? "column" = some position.column :=
    Json.member?_of_get? rfl (Decimal.toInt?_ofInt _)
  rw [readPosition?, line, column]
  rfl

/-- A library is read back without its place. -/
theorem readEntry?_entryJson (entry : Entry) :
    readEntry? (entryJson entry) = some (entryRecord entry) :=
  rfl

/-- The message of a warning is read back. -/
theorem member?_warningJson (warning : Diagnostic) :
    (warningJson warning).member? Json.text? "message" = some warning.message :=
  rfl

/-- An error is read back as it is carried. -/
theorem readError?_errorJson (error : Diagnostic) :
    readError? (errorJson error) = some (.ofDiagnostic error) := by
  obtain ⟨severity, path, position, message, source, code⟩ := error
  have named : (errorJson ⟨severity, path, position, message, source, code⟩).optional?
      Json.text? "code" = some code := by
    cases code <;> rfl
  have placed : (errorJson ⟨severity, path, position, message, source, code⟩).member?
      (Json.orNull? readPosition?) "position" = some position := by
    cases position with
    | none => cases code <;> rfl
    | some position =>
      have there : (errorJson ⟨severity, path, some position, message, source, code⟩).get?
          "position" = some (positionJson position) := by
        cases code <;> rfl
      have value : Json.orNull? readPosition? (positionJson position) = some (some position) :=
        congrArg (Option.map some) (readPosition?_positionJson position)
      exact Json.member?_of_get? there value
  rw [readError?, named, placed]
  rfl

/-- An architecture is read back, or that there is none. -/
theorem readArch?_archJson (arch : Option CpuArch) :
    Json.orNull? readArch? (archJson arch) = some arch := by
  cases arch with
  | none => rfl
  | some arch => exact congrArg (Option.map some) (CpuArch.ofName?_name arch)

/-- **A result is read back as it is carried.** -/
theorem readFile?_resultJson (result : CheckResult) :
    readFile? (resultJson result) = some (.ofResult result) := by
  obtain ⟨path, script, errors, warnings⟩ := result
  have libraries : (resultJson ⟨path, script, errors, warnings⟩).member?
      (Json.orNull? (Json.items? readEntry?)) "entries" =
        some (script.map fun script => script.entries.map entryRecord) := by
    cases script with
    | none => rfl
    | some script =>
      have read : Json.items? readEntry? (.arr (script.entries.map entryJson)) =
          some (script.entries.map entryRecord) :=
        Json.items?_map readEntry?_entryJson script.entries
      have there : (resultJson ⟨path, some script, errors, warnings⟩).get? "entries" =
          some (.arr (script.entries.map entryJson)) := rfl
      exact Json.member?_of_get? there (congrArg (Option.map some) read)
  have complaints : (resultJson ⟨path, script, errors, warnings⟩).member?
      (Json.items? readError?) "errors" = some (errors.map .ofDiagnostic) :=
    Json.member?_of_get? rfl (Json.items?_map readError?_errorJson errors)
  have remarks : (resultJson ⟨path, script, errors, warnings⟩).member?
      (Json.items? (Json.member? Json.text? "message")) "warnings" =
        some (warnings.map (·.message)) := by
    have read : Json.items? (Json.member? Json.text? "message") (.arr (warnings.map warningJson)) =
        some (warnings.map (·.message)) :=
      Json.items?_map member?_warningJson warnings
    exact Json.member?_of_get? rfl read
  have arch : (resultJson ⟨path, script, errors, warnings⟩).member?
      (Json.orNull? readArch?) "cpuArch" = some (script.bind (·.cpuArch)) :=
    Json.member?_of_get? rfl (readArch?_archJson _)
  rw [readFile?, arch, libraries, complaints, remarks]
  rfl

/-- The counts of a document are those of its results. -/
theorem readCheck?_checkJson (results : List CheckResult) :
    readCheck? (checkJson results) = some (.ofResults results) := by
  have count (name : String) (n : Nat)
      (there : ((checkJson results).get? "summary").bind (·.get? name) = some (.nat n)) :
      (checkJson results).member? (Json.member? Json.count? name) "summary" = some n := by
    obtain ⟨summary, found, inside⟩ := Option.bind_eq_some_iff.mp there
    exact Json.member?_of_get? found (Json.member?_of_get? inside (Decimal.toNat?_ofNat n))
  have files : (checkJson results).member? (Json.items? readFile?) "files" =
      some (results.map .ofResult) :=
    Json.member?_of_get? rfl (Json.items?_map readFile?_resultJson results)
  rw [readCheck?, count "files" results.length rfl, count "errors" (totalErrors results) rfl,
    count "warnings" (totalWarnings results) rfl, files, totalErrors, totalWarnings,
    List.length_flatMap, List.length_flatMap]
  rfl

section

variable {options : ReportOptions} (json : options.format = .json) (level : Nat)
include json

/-- The report on check results for programs is read as the document it is made from. -/
theorem read_check (results : List CheckResult) :
    Json.read (check options level results) = some (checkJson results) := by
  rw [check, json]
  exact Json.read_pretty _

/-- The report on a script for programs is read as the document it is made from. -/
theorem read_script (script : Script) :
    Json.read (Report.script options level script) = some (scriptJson script) := by
  rw [Report.script, json]
  exact Json.read_pretty _

/-- The text of a report is read as all that it carries. -/
theorem readReport?_check (results : List CheckResult) :
    readReport? (check options level results) = some (.ofResults results) := by
  rw [readReport?, read_check json, Option.bind_some, readCheck?_checkJson]

end

/-! ## Nothing else is carried -/

/-- An error with nothing but what is carried of it. -/
def ErrorRecord.bare (error : ErrorRecord) : Diagnostic where
  severity := .error
  path := ""
  position := error.position
  message := error.message
  code := error.code

/-- A result with nothing but what is carried of it. -/
def FileRecord.bare (file : FileRecord) : CheckResult where
  path := file.path
  script := file.entries.map fun entries =>
    ⟨⟨file.cpuArch, entries.map fun entry => ⟨entry.1, entry.2, ⟨0, 0⟩⟩⟩, ""⟩
  errors := file.errors.map ErrorRecord.bare
  warnings := file.warnings.map (.ofFile .warning "")

/-- A result that has nothing but what is carried of it is reported on in the same way. -/
theorem resultJson_bare (result : CheckResult) :
    resultJson (FileRecord.ofResult result).bare = resultJson result := by
  obtain ⟨path, script, errors, warnings⟩ := result
  have complaints : ((errors.map ErrorRecord.ofDiagnostic).map ErrorRecord.bare).map
      errorJson = errors.map errorJson := by
    rw [List.map_map, List.map_map]
    rfl
  have remarks : ((warnings.map (·.message)).map (Diagnostic.ofFile .warning "")).map
      warningJson = warnings.map warningJson := by
    rw [List.map_map, List.map_map]
    rfl
  unfold resultJson FileRecord.bare FileRecord.ofResult
  dsimp only
  rw [complaints, remarks]
  cases script with
  | none => rfl
  | some script =>
    simp [entryJson, entryRecord]

/-- A result that has nothing but what is carried of it has as many errors and warnings. -/
theorem length_bare (result : CheckResult) :
    (FileRecord.ofResult result).bare.errors.length = result.errors.length ∧
      (FileRecord.ofResult result).bare.warnings.length = result.warnings.length := by
  simp [FileRecord.bare, FileRecord.ofResult]

/-- Results that have nothing but what is carried of them are reported on in the same way. -/
theorem checkJson_bare (results : List CheckResult) :
    checkJson ((results.map FileRecord.ofResult).map FileRecord.bare) =
      checkJson results := by
  have files : ((results.map FileRecord.ofResult).map FileRecord.bare).map resultJson =
      results.map resultJson := by
    rw [List.map_map, List.map_map]
    exact List.map_congr_left fun result _ => resultJson_bare result
  have errors : totalErrors ((results.map FileRecord.ofResult).map FileRecord.bare) =
      totalErrors results := by
    simp [totalErrors, List.length_flatMap, Function.comp_def, length_bare]
  have warnings : totalWarnings ((results.map FileRecord.ofResult).map FileRecord.bare) =
      totalWarnings results := by
    simp [totalWarnings, List.length_flatMap, Function.comp_def, length_bare]
  rw [checkJson, files, errors, warnings, List.length_map, List.length_map]
  rfl

/-- **A report for programs loses nothing that it carries.**  Its text is one document, from which
the counts are read back, and a record for each result, in order.  Two lists of results have the
same text exactly if they have the same records. -/
theorem check_recovers (options : ReportOptions) (json : options.format = .json) (level : Nat)
    (results : List CheckResult) :
    readReport? (check options level results) = some (.ofResults results) ∧
      ∀ others, check options level others = check options level results ↔
        others.map FileRecord.ofResult = results.map FileRecord.ofResult := by
  refine ⟨readReport?_check json level results, fun others => ⟨fun same => ?_, fun same => ?_⟩⟩
  · have read : CheckRecord.ofResults others = .ofResults results := by
      rw [← Option.some.injEq, ← readReport?_check json level, ← readReport?_check json level, same]
    exact congrArg CheckRecord.files read
  · simp only [check, json]
    rw [← checkJson_bare, same, checkJson_bare]

/-- A script without an architecture and without a library, as a result. -/
def emptyScript : CheckResult := { path := "a\n\"b\".so", script := some ⟨⟨none, []⟩, "x"⟩ }

/-- A file that is no script, as a result with an error of each kind and a warning. -/
def noScript : CheckResult where
  path := "ü.so"
  errors := [
    { severity := .error, path := "", message := "lost\t\x1b", position := some ⟨1, -2⟩ },
    { severity := .error, path := "", message := "", code := some "" }]
  warnings := [{ severity := .warning, path := "", message := "\\" }]

/-- An empty script and no script both have no architecture, and are told apart by their entries. -/
theorem check_recovers_mixed :
    let options : ReportOptions := { format := .json }
    options.format = .json ∧
      readReport? (check options 0 [emptyScript, noScript]) = some {
        results := 2
        errors := 2
        warnings := 1
        files := [⟨"a\n\"b\".so", none, some [], [], []⟩,
          ⟨"ü.so", none, none, [⟨"lost\t\x1b", none, some ⟨1, -2⟩⟩, ⟨"", some "", none⟩],
            ["\\"]⟩] } ∧
      check options 0 [{ emptyScript with script := none }] ≠ check options 0 [emptyScript] := by
  intro options
  obtain ⟨read, -⟩ := check_recovers options rfl 0 [emptyScript, noScript]
  obtain ⟨-, differ⟩ := check_recovers options rfl 0 [emptyScript]
  exact ⟨rfl, read, mt (differ _).mp (by decide)⟩

end Report

end LinkScript
