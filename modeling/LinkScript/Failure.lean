import LinkScript.Token

/-!
# Why a script is refused

A malformed script is refused for one of three reasons, each tied to a place in the source.
`Defect` holds the reasons with what there is to say about them, `LinkFailure` adds the place,
and `LinkFailure.message` is the one place where the wording is chosen.

A `Diagnostic` is what is said about one script to whoever asked for it to be read.  A `Collector`
keeps what it is told, in order, and can tell the errors among it.
-/

namespace LinkScript

/-- What is wrong with a script. -/
inductive Defect where
  /-- Bytes that form no token. -/
  | invalidToken (bytes : Bytes)
  /-- A token where the grammar does not allow it. -/
  | unexpectedToken (type : TokenType) (text : String)
  /-- An object file format of no supported architecture. -/
  | unknownCpuArch (format : String)
  deriving Repr, DecidableEq

namespace Defect

/-- The short name of a reason, for programs to read. -/
def code : Defect → String
  | invalidToken _ => "invalid-token"
  | unexpectedToken _ _ => "unexpected-token"
  | unknownCpuArch _ => "unknown-cpu-arch"

/-- What is wrong, in words. -/
def description : Defect → String
  | invalidToken bytes =>
    "invalid token in LD script: '" ++ Text.HexEscape.escape bytes ++ "'"
  | unexpectedToken type text =>
    "unexpected token in LD script: " ++ type.name ++ ": '" ++ text ++ "'"
  | unknownCpuArch format =>
    "unknown CPU architecture in LD script: '" ++ format ++ "'"

end Defect

/-- A defect and the place of the token that shows it. -/
structure LinkFailure where
  defect : Defect
  position : Position
  deriving Repr, DecidableEq

namespace LinkFailure

/-- The short name of the reason. -/
def code (failure : LinkFailure) : String := failure.defect.code

/-- What is wrong and where, in words. -/
def message (failure : LinkFailure) : String :=
  failure.defect.description ++ " (" ++ toString failure.position.line ++ ":"
    ++ toString failure.position.column ++ ")"

end LinkFailure

/-! ## Diagnostics -/

/-- How much a diagnostic matters. -/
inductive Severity where
  | error
  | warning
  | information
  | hint
  deriving Repr, DecidableEq

/-- The number of a severity, one for the gravest. -/
def Severity.number : Severity → Nat
  | error => 1
  | warning => 2
  | information => 3
  | hint => 4

/-- A remark about a script. -/
structure Diagnostic where
  severity : Severity
  path : String
  position : Option Position := none
  message : String
  source : String := "ldscript"
  code : Option String := none
  deriving Repr, DecidableEq

namespace Diagnostic

/-- The error that a refused script gives. -/
def ofFailure (path : String) (failure : LinkFailure) : Diagnostic where
  severity := .error
  path := path
  position := some failure.position
  message := failure.message
  code := some failure.code

/-- Whether a diagnostic is an error. -/
def isError (diagnostic : Diagnostic) : Bool := diagnostic.severity == .error

/-- Whether a diagnostic is a warning. -/
def isWarning (diagnostic : Diagnostic) : Bool := diagnostic.severity == .warning

end Diagnostic

/-- The diagnostics reported so far. -/
structure Collector where
  diagnostics : List Diagnostic := []
  deriving Repr, DecidableEq

namespace Collector

/-- One more diagnostic. -/
def report (collector : Collector) (diagnostic : Diagnostic) : Collector :=
  ⟨collector.diagnostics ++ [diagnostic]⟩

/-- Nothing reported. -/
def clear (_ : Collector) : Collector := ⟨[]⟩

/-- The errors, in the order of their reports. -/
def errors (collector : Collector) : List Diagnostic :=
  collector.diagnostics.filter Diagnostic.isError

/-- The warnings, in the order of their reports. -/
def warnings (collector : Collector) : List Diagnostic :=
  collector.diagnostics.filter Diagnostic.isWarning

/-- Whether there is an error. -/
def hasErrors (collector : Collector) : Bool := collector.diagnostics.any Diagnostic.isError

end Collector

end LinkScript
