import LinkScript.Proofs.Check
import Mathlib.Logic.ExistsUnique

/-!
# The three kinds of files

Exit codes and reports count on it that a checked file is a script, an object file or a failure, and
that its result has the shape of that kind and of no other.

* `FileKind.Reads` says of a kind what reading such a file gives, and `FileKind.Gives` what the
  result of the check holds, neither of them by checking.
* `FileKind.exists_reads`: every file is of some kind.  `FileKind.Gives.unique`: no result has the
  shape of two.
* `FileKind.Reads.gives`: the result has the shape of the kind.
* `checkFile_kind` puts these together, with what an error says and which path it has.
-/

namespace LinkScript

/-- What a checked file can be. -/
inductive FileKind where
  | script
  | object
  /-- It cannot be read, or it is read and refused. -/
  | failure

namespace FileKind

/-- What reading a file of a kind gives. -/
def Reads : FileKind → Except FileFault Bytes → Prop
  | script, read => ∃ source contents, read = .ok source ∧ isElf source = false ∧
      parse source = .ok contents
  | object, read => ∃ source, read = .ok source ∧ isElf source = true
  | failure, read => (∃ fault, read = .error fault) ∨
      ∃ source defect, read = .ok source ∧ isElf source = false ∧
        parse source = .error (.link defect)

/-- What the result for a file of a kind holds: a script and nothing else, one warning and nothing
else, or one error and nothing else. -/
def Gives : FileKind → CheckResult → Prop
  | script, result => result.script.isSome = true ∧ result.errors = [] ∧ result.warnings = []
  | object, result => result.script = none ∧ result.errors = [] ∧
      ∃ warning, result.warnings = [warning] ∧ warning.severity = .warning
  | failure, result => result.script = none ∧ result.warnings = [] ∧
      ∃ error, result.errors = [error] ∧ error.severity = .error

variable {kind other : FileKind} {read : Except FileFault Bytes} {result : CheckResult}

/-- Every file is of some kind. -/
theorem exists_reads (read : Except FileFault Bytes) : ∃ kind : FileKind, kind.Reads read := by
  rcases read with fault | source
  · exact ⟨failure, Or.inl ⟨fault, rfl⟩⟩
  · cases elf : isElf source with
    | true => exact ⟨object, source, rfl, elf⟩
    | false =>
      rcases parse_ok_or_link source with ⟨contents, accepted⟩ | ⟨defect, refused⟩
      · exact ⟨script, source, contents, rfl, elf, accepted⟩
      · exact ⟨failure, Or.inr ⟨source, defect, rfl, elf, refused⟩⟩

/-- A script is told from the others by the script in the result, and a failure from an object file
by the error. -/
theorem Gives.unique (gives : kind.Gives result) (also : other.Gives result) : kind = other := by
  cases kind <;> cases other <;> simp_all [Gives]

end FileKind

/-! ## The result for what is read -/

namespace CheckResult

variable {path : String} {source : Bytes} {contents : Contents} {defect : LinkFailure}

/-- The result for a script holds it. -/
theorem ofRead_of_ok (other : isElf source = false) (accepted : parse source = .ok contents) :
    ofRead path (.ok source) = { path, script := some { contents with path } } := by
  unfold ofRead
  simp only [other, accepted, Bool.false_eq_true, if_false]

/-- The result for an object file holds a warning. -/
theorem ofRead_of_isElf (object : isElf source = true) :
    ofRead path (.ok source) = { path, warnings := [Diagnostic.ofFile .warning path
      "Not a linker script (ELF object), skipped"] } := by
  unfold ofRead
  simp only [object, if_true]

/-- The result for a script that is refused holds the error of its failure. -/
theorem ofRead_of_error (other : isElf source = false)
    (refused : parse source = .error (.link defect)) :
    ofRead path (.ok source) = { path, errors := [Diagnostic.ofFailure path defect] } := by
  unfold ofRead
  simp only [other, refused, Bool.false_eq_true, if_false]

/-- A result is for the path of the file, and so is all that is said in it. -/
theorem ofRead_path (path : String) (read : Except FileFault Bytes) :
    (ofRead path read).path = path ∧
      ∀ diagnostic ∈ (ofRead path read).errors ++ (ofRead path read).warnings,
        diagnostic.path = path := by
  unfold ofRead
  split
  · simp [Diagnostic.ofFile]
  · split
    · simp [Diagnostic.ofFile]
    · split <;> simp [Diagnostic.ofFailure]

end CheckResult

/-- **The result of a check has the shape of the kind of the file.** -/
theorem FileKind.Reads.gives {kind : FileKind} {read : Except FileFault Bytes}
    (reads : kind.Reads read) (path : String) : kind.Gives (.ofRead path read) := by
  cases kind with
  | script =>
    obtain ⟨source, contents, rfl, other, accepted⟩ := reads
    rw [CheckResult.ofRead_of_ok other accepted]
    exact ⟨rfl, rfl, rfl⟩
  | object =>
    obtain ⟨source, rfl, object⟩ := reads
    rw [CheckResult.ofRead_of_isElf object]
    exact ⟨rfl, rfl, _, rfl, rfl⟩
  | failure =>
    rcases reads with ⟨fault, rfl⟩ | ⟨source, defect, rfl, other, refused⟩
    · exact ⟨rfl, rfl, _, rfl, rfl⟩
    · rw [CheckResult.ofRead_of_error other refused]
      exact ⟨rfl, rfl, _, rfl, rfl⟩

/-- A result has the shape of a kind exactly if the file is of that kind. -/
theorem FileKind.gives_iff_reads {kind : FileKind} {read : Except FileFault Bytes} (path : String) :
    kind.Gives (.ofRead path read) ↔ kind.Reads read := by
  refine ⟨?_, fun reads => reads.gives path⟩
  intro gives
  -- The file is of some kind, which gives its own shape, and the shape is of one kind only.
  obtain ⟨own, reads⟩ := exists_reads read
  rw [gives.unique (reads.gives path)]
  exact reads

/-- **Every file is of exactly one kind, and the result of its check says which.**  With a logger
that takes every line, checking a file gives a result for its path, whatever the file is.  The result
has the shape of exactly one kind, the one of the file.  The script in it has what the parser reads,
an error of the parser comes with its place, its message and its code, and the error of a file that
cannot be read has neither place nor code.  All that is said is said of the path. -/
theorem checkFile_kind (root : Tree) (cwd : Path) (path : String) {logger : Logger}
    (accepting : logger.IsAccepting) :
    ∃ result, (checkFile root cwd path logger).outcome = .ok result ∧ result.path = path ∧
      (∃! kind : FileKind, kind.Gives result) ∧
      (∀ kind : FileKind, kind.Gives result ↔ kind.Reads (root.read cwd path)) ∧
      (∀ source contents, root.read cwd path = .ok source → isElf source = false →
        parse source = .ok contents → result.script = some { contents with path }) ∧
      (∀ source defect, root.read cwd path = .ok source → isElf source = false →
        parse source = .error (.link defect) →
        ∃ error, result.errors = [error] ∧ error.position = some defect.position ∧
          error.message = defect.message ∧ error.code = some defect.code) ∧
      (∀ fault, root.read cwd path = .error fault →
        ∃ error, result.errors = [error] ∧ error.position = none ∧ error.code = none) ∧
      ∀ diagnostic ∈ result.errors ++ result.warnings, diagnostic.path = path := by
  generalize taken : root.read cwd path = read
  have outcome : (checkFile root cwd path logger).outcome = .ok (.ofRead path read) := by
    rw [checkFile_eq accepting, taken]
    rfl
  obtain ⟨samePath, paths⟩ := CheckResult.ofRead_path path read
  refine ⟨.ofRead path read, outcome, samePath, ?_, fun _ => FileKind.gives_iff_reads path, ?_, ?_,
    ?_, paths⟩
  · obtain ⟨kind, reads⟩ := FileKind.exists_reads read
    exact ⟨kind, reads.gives path, fun _ gives => gives.unique (reads.gives path)⟩
  · rintro source contents rfl other accepted
    rw [CheckResult.ofRead_of_ok other accepted]
  · rintro source defect rfl other refused
    rw [CheckResult.ofRead_of_error other refused]
    exact ⟨_, rfl, rfl, rfl, rfl⟩
  · rintro fault rfl
    exact ⟨_, rfl, rfl, rfl⟩

/-- A directory with a script, one that is refused and an object file. -/
def assortedTree : Tree :=
  .directory [("a.so", .file (Text.Utf8.encode "GROUP(libm.so.6)")),
    ("b.so", .file (Text.Utf8.encode "GROUP(")), ("c.so", .file elfMagic)]

/-- One file of each kind, with the error of a script that is refused, and a file that is not there. -/
theorem checkFile_kind_assorted :
    let logger := Logger.create "" none none fun _ => .ok ()
    logger.IsAccepting ∧
    (∃ result, (checkFile assortedTree [] "a.so" logger).outcome = .ok result ∧
      FileKind.script.Gives result) ∧
    (∃ result error, (checkFile assortedTree [] "b.so" logger).outcome = .ok result ∧
      FileKind.failure.Gives result ∧ result.errors = [error] ∧
      error.code = some "unexpected-token" ∧ error.position = some ⟨0, 6⟩) ∧
    (∃ result, (checkFile assortedTree [] "c.so" logger).outcome = .ok result ∧
      FileKind.object.Gives result) ∧
    ∃ result, (checkFile assortedTree [] "d.so" logger).outcome = .ok result ∧
      FileKind.failure.Gives result := by
  intro logger
  have accepting : logger.IsAccepting := fun _ => rfl
  have accepted : parse (Text.Utf8.encode "GROUP(libm.so.6)") =
      .ok ⟨none, [⟨"libm.so.6", true, ⟨6, 15⟩⟩]⟩ := by
    decide +kernel
  have refused : parse (Text.Utf8.encode "GROUP(") =
      .error (.link ⟨.unexpectedToken .eof "", ⟨0, 6⟩⟩) := by
    decide +kernel
  refine ⟨accepting, ?_, ?_, ?_, ?_⟩
  · obtain ⟨result, outcome, -, -, kinds, -⟩ := checkFile_kind assortedTree [] "a.so" accepting
    exact ⟨result, outcome, (kinds .script).mpr ⟨_, _, rfl, by decide +kernel, accepted⟩⟩
  · obtain ⟨result, outcome, -, -, kinds, -, defects, -⟩ :=
      checkFile_kind assortedTree [] "b.so" accepting
    obtain ⟨error, errors, position, -, code⟩ := defects _ _ rfl (by decide +kernel) refused
    refine ⟨result, error, outcome, (kinds .failure).mpr ?_, errors, code, position⟩
    exact Or.inr ⟨_, _, rfl, by decide +kernel, refused⟩
  · obtain ⟨result, outcome, -, -, kinds, -⟩ := checkFile_kind assortedTree [] "c.so" accepting
    exact ⟨result, outcome, (kinds .object).mpr ⟨_, rfl, by decide +kernel⟩⟩
  · obtain ⟨result, outcome, -, -, kinds, -⟩ := checkFile_kind assortedTree [] "d.so" accepting
    exact ⟨result, outcome, (kinds .failure).mpr (Or.inl ⟨_, rfl⟩)⟩

end LinkScript
