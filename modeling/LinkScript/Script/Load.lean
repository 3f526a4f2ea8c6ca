import LinkScript.Log
import LinkScript.Script.Parser

/-!
# Reading a script under observation

`readScript` reads one script and tells two observers about it, both of them optional: a sink for
diagnostics and a logger.  A script that is read is logged and nothing is reported; a script that
is refused is reported, then logged, and then the run ends in its failure.  An observer may
refuse what it is handed, which ends the run there.

The logger is told of a script that was read before that success is certain: `attemptScript` is all
that may still fail, and what it fails with is looked at before anything is reported.
-/

namespace LinkScript

/-- What a script can be handed over as: bytes or text. -/
inductive ScriptData where
  | bytes (bytes : Bytes)
  | text (text : String)
  deriving Repr, DecidableEq

/-- The source of a script: its bytes, or its text as bytes. -/
def ScriptData.source : ScriptData → Bytes
  | bytes given => given
  | text given => Text.Utf8.encode given

/-- A receiver of diagnostics, which may refuse one for a reason of its own. -/
abbrev Sink := Diagnostic → Except String Unit

/-- The receiver that takes every diagnostic. -/
def Sink.keepAll : Sink := fun _ => .ok ()

/-- Hands a diagnostic to a sink. -/
def Sink.report (sink : Sink) (diagnostic : Diagnostic) : Run Unit :=
  match sink diagnostic with
  | .ok () => Run.emit (.reported diagnostic)
  | .error reason => Run.fail (.refused reason)

/-- What is logged of a script that was read. -/
def parsedMetadata (path : String) (contents : Contents) : Fields Log.Value :=
  [("path", .str path),
    ("cpu_arch", match contents.cpuArch with
      | some arch => .str arch.name
      | none => .null),
    ("entry_count", .nat contents.entries.length)]

/-- What is logged of a script that was refused. -/
def rejectedMetadata (path : String) (failure : LinkFailure) : Fields Log.Value :=
  [("path", .str path), ("code", .str failure.code), ("message", .str failure.message)]

/-- Hands a diagnostic to a sink, if there is one. -/
def Sink.report? (sink : Option Sink) (diagnostic : Diagnostic) : Run Unit :=
  match sink with
  | some sink => sink.report diagnostic
  | none => pure ()

/-- Writes an event to a logger, if there is one. -/
def Logger.log? (logger : Option Logger) (level : LogLevel) (event : String)
    (metadata : Fields Log.Value) : Run Unit :=
  match logger with
  | some logger => logger.log level event metadata
  | none => pure ()

/-- Reads the script at a path from what is handed over, as far as nothing fails. -/
def attemptScript (path : String) (data : ScriptData) (logger : Option Logger) : Run Script := do
  let contents ← Run.ofExcept ((parse data.source).mapError Fault.parse)
  Logger.log? logger .debug "ld_script_parsed" (parsedMetadata path contents)
  return { contents with path }

/-- Reads the script at a path from what is handed over. -/
def readScript (path : String) (data : ScriptData) (sink : Option Sink) (logger : Option Logger) :
    Run Script :=
  (attemptScript path data logger).recover fun
    | .parse (.link failure) => do
      Sink.report? sink (Diagnostic.ofFailure path failure)
      Logger.log? logger .warn "ld_script_rejected" (rejectedMetadata path failure)
      Run.fail (.parse (.link failure))
    | fault => Run.fail fault

end LinkScript
