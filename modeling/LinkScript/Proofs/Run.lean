import LinkScript.Log
import Mathlib.Data.List.Basic

/-!
# Runs that only log

Most of what the program does shows nothing but log lines and ends in a value.  `Run.logging` is
such a run.  The lemmas here say what comes of one when another run goes on from it, and what is
left to see on the two output streams.

`Logger.log_eq` is where such runs begin: a logger that takes every line only logs.

`Run.showing` is a run that complains, logs and prints, one after another; its views are the three
parts.
-/

namespace LinkScript

namespace Run

variable {α β : Type}

/-- A run that logs lines and ends in a value. -/
def logging (lines : List String) (value : α) : Run α := ⟨lines.map Event.logged, .ok value⟩

/-- A run from a value on, after lines have been logged. -/
theorem logging_bind (lines : List String) (value : α) (next : α → Run β) :
    logging lines value >>= next =
      ⟨lines.map Event.logged ++ (next value).events, (next value).outcome⟩ := rfl

/-- Lines that are logged by one run after another are logged one after another. -/
theorem logging_bind_logging (lines more : List String) (value : α) (result : β)
    {next : α → Run β} (same : next value = logging more result) :
    logging lines value >>= next = logging (lines ++ more) result := by
  rw [logging_bind, same]
  simp [logging]

/-- A value that is made of the value of a run comes with what that run logs. -/
theorem logging_bind_pure (lines : List String) (value : α) (result : β) {next : α → Run β}
    (same : next value = pure result) : logging lines value >>= next = logging lines result := by
  rw [logging_bind_logging lines [] value result same, List.append_nil]

/-! ## What is left to see -/

variable (lines : List String) (events : List Event)

/-- Log lines are not on the standard output. -/
theorem outText_logged_append : outText (lines.map Event.logged ++ events) = outText events := by
  induction lines with
  | nil => rfl
  | cons line lines ih => exact ih

/-- Log lines are not among the complaints. -/
theorem stderr_logged_append (outcome : Except Fault α) :
    stderr ⟨lines.map Event.logged ++ events, outcome⟩ = stderr ⟨events, outcome⟩ := by
  induction lines with
  | nil => rfl
  | cons line lines ih => exact ih

/-- What is collected of a run that reports and then logs: the diagnostics go with the outcome, and
the log lines are seen. -/
theorem collect_reported (diagnostics : List Diagnostic) (outcome : Except Fault α) :
    collect ⟨diagnostics.map Event.reported ++ lines.map Event.logged, outcome⟩ =
      logging lines (outcome, ⟨diagnostics⟩) := by
  have dropped : diagnostics.filter (fun _ => false) = [] :=
    List.filter_eq_nil_iff.mpr (by simp)
  have kept : lines.filter (fun _ => true) = lines := List.filter_eq_self.mpr (by simp)
  simp [collect, logging, Run.diagnostics, List.filter_map, List.filterMap_map, Function.comp_def,
    dropped, kept]

/-! ## Runs in three parts -/

/-- A run that complains, then logs and then prints. -/
def showing (complaints lines texts : List String) (outcome : Except Fault α) : Run α :=
  ⟨complaints.map Event.complained ++ lines.map Event.logged ++ texts.map Event.printed, outcome⟩

section

variable (complaints texts : List String) (outcome : Except Fault α)

/-- Complaints come before what another run logs and prints. -/
theorem showing_bind {next : Unit → Run α} (same : next () = showing [] lines texts outcome) :
    showing complaints [] [] (.ok ()) >>= next = showing complaints lines texts outcome := by
  change Run.bind _ _ = _
  simp [Run.bind, same, showing]

/-- Log lines come before those of another run and what it prints. -/
theorem logging_bind_showing (before : List String) (value : β) {next : β → Run α}
    (same : next value = showing [] lines texts outcome) :
    logging before value >>= next = showing [] (before ++ lines) texts outcome := by
  rw [logging_bind, same]
  simp [showing]

/-- A run that shows something ends in its outcome. -/
@[simp] theorem outcome_showing : (showing complaints lines texts outcome).outcome = outcome := rfl

/-- A run that shows something prints its texts. -/
@[simp] theorem stdout_showing :
    (showing complaints lines texts outcome).stdout = String.join texts := by
  simp [stdout, outText, showing, List.filterMap_map, List.filterMap_none]

/-- A run that shows something complains with its complaints. -/
@[simp] theorem stderr_showing :
    (showing complaints lines texts outcome).stderr = String.join complaints := by
  simp [stderr, showing, List.filterMap_map, List.filterMap_none]

/-- A run that shows something logs its lines. -/
@[simp] theorem logs_showing : (showing complaints lines texts outcome).logs = lines := by
  simp [logs, showing, List.filterMap_map, List.filterMap_none]

end

end Run

/-- Whether what takes the lines of a logger takes every line. -/
def Logger.IsAccepting (logger : Logger) : Prop := ∀ line, logger.accept line = .ok ()

/-- Such a logger writes its line, if there is one, and nothing else comes of it. -/
theorem Logger.log_eq {logger : Logger} (accepting : logger.IsAccepting) (level : LogLevel)
    (event : String) (metadata : Fields Log.Value) :
    logger.log level event metadata =
      Run.logging (logger.line? level event metadata).toList () := by
  rw [log]
  cases logger.line? level event metadata with
  | none => rfl
  | some line =>
    dsimp only
    rw [accepting line]
    rfl

end LinkScript
