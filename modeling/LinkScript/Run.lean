import LinkScript.Failure
import LinkScript.Fault

/-!
# Runs and what they let be seen

A `Run` is a computation together with everything it lets the outside see, in order: diagnostics
reported, log lines written, and text on the two output streams.  It ends in a value or in a
fault, and what was seen before a fault stays seen.
-/

namespace LinkScript

/-- Something that the outside sees. -/
inductive Event where
  | reported (diagnostic : Diagnostic)
  | logged (line : String)
  | printed (text : String)
  | complained (text : String)
  deriving Repr, DecidableEq

/-- A computation: what it lets be seen, and how it ends. -/
structure Run (α : Type) where
  events : List Event
  outcome : Except Fault α

namespace Run

variable {α β : Type}

/-- A run that only has a value. -/
protected def pure (value : α) : Run α := ⟨[], .ok value⟩

/-- One run after another, unless the first ends in a fault. -/
protected def bind (run : Run α) (next : α → Run β) : Run β :=
  match run.outcome with
  | .ok value => ⟨run.events ++ (next value).events, (next value).outcome⟩
  | .error fault => ⟨run.events, .error fault⟩

instance : Monad Run where
  pure := Run.pure
  bind := Run.bind

/-- A run that shows one thing. -/
def emit (event : Event) : Run Unit := ⟨[event], .ok ()⟩

/-- A run that ends in a fault. -/
def fail (fault : Fault) : Run α := ⟨[], .error fault⟩

/-- A value or a fault as a run that shows nothing. -/
def ofExcept (outcome : Except Fault α) : Run α := ⟨[], outcome⟩

/-- Writes text to the standard output. -/
def print (text : String) : Run Unit := emit (.printed text)

/-- Writes a line to the standard output. -/
def printLine (line : String) : Run Unit := print (line ++ "\n")

/-- Writes a line to the standard error output. -/
def complain (line : String) : Run Unit := emit (.complained (line ++ "\n"))

/-! ## Views -/

/-- The text of a sequence of events on the standard output. -/
def outText (events : List Event) : String :=
  String.join (events.filterMap fun
    | .printed text => some text
    | _ => none)

/-- The text on the standard output. -/
def stdout (run : Run α) : String := outText run.events

/-- The text on the standard error output, log lines aside. -/
def stderr (run : Run α) : String :=
  String.join (run.events.filterMap fun
    | .complained text => some text
    | _ => none)

/-- The text on the standard error output when log lines go there too. -/
def stderrWithLog (run : Run α) : String :=
  String.join (run.events.filterMap fun
    | .complained text => some text
    | .logged line => some (line ++ "\n")
    | _ => none)

/-- The log lines. -/
def logs (run : Run α) : List String :=
  run.events.filterMap fun
    | .logged line => some line
    | _ => none

/-- The diagnostics reported. -/
def diagnostics (run : Run α) : List Diagnostic :=
  run.events.filterMap fun
    | .reported diagnostic => some diagnostic
    | _ => none

/-! ## Handling -/

/-- Keeps the diagnostics of a run for whoever started it: they come with the outcome, and the
outside sees the rest. -/
def collect (run : Run α) : Run (Except Fault α × Collector) :=
  ⟨run.events.filter fun
      | .reported _ => false
      | _ => true,
    .ok (run.outcome, ⟨run.diagnostics⟩)⟩

/-- Goes on from a fault, if there is one; what was seen before it stays seen. -/
def recover (run : Run α) (handle : Fault → Run α) : Run α :=
  match run.outcome with
  | .ok value => ⟨run.events, .ok value⟩
  | .error fault => ⟨run.events ++ (handle fault).events, (handle fault).outcome⟩

end Run

end LinkScript
