import LinkScript.Proofs.Run
import LinkScript.Script.Load

/-!
# What observers of a reading come to know

A reading tells its observers about the script once each and in a fixed order, and one that refuses
what it is handed ends it there.

* `Sink.Reported` and `Logger.Told` are all that can come of handing something to an observer: what
  is seen of it, and the reason if it refuses.  `Run.unlessRefused` is a run that ends so.
* `readScript_of_ok`: a script that is read is only logged.  `readScript_of_other` is the reason:
  nothing but a failure of the script is ever reported.
* `readScript_of_link`: a failure is reported, then logged, and then ends the run.
* `readScript_effects` puts this together for what is handed over as bytes or as text.
-/

namespace LinkScript

/-! ## What comes of telling an observer -/

/-- All that can come of handing a diagnostic to an optional sink: what is seen of it, and the reason
if the sink refuses. -/
inductive Sink.Reported (sink : Option Sink) (diagnostic : Diagnostic) :
    List Event → Option String → Prop where
  | nobody : sink = none → Reported sink diagnostic [] none
  | taken {receiver : Sink} : sink = some receiver → receiver diagnostic = .ok () →
      Reported sink diagnostic [.reported diagnostic] none
  | refused {receiver : Sink} {reason : String} : sink = some receiver →
      receiver diagnostic = .error reason → Reported sink diagnostic [] (some reason)

/-- All that can come of writing an event to an optional logger: what is seen of it, and the reason if
what takes its lines refuses this one. -/
inductive Logger.Told (logger : Option Logger) (level : LogLevel) (event : String)
    (metadata : Fields Log.Value) : List Event → Option String → Prop where
  | nobody : logger = none → Told logger level event metadata [] none
  | below {writer : Logger} : logger = some writer →
      level.priority < writer.minLevel.priority → Told logger level event metadata [] none
  | written {writer : Logger} {line : String} : logger = some writer →
      writer.line? level event metadata = some line → writer.accept line = .ok () →
      Told logger level event metadata [.logged line] none
  | refused {writer : Logger} {line reason : String} : logger = some writer →
      writer.line? level event metadata = some line → writer.accept line = .error reason →
      Told logger level event metadata [] (some reason)

namespace Run

variable {α β : Type}

/-- A run that shows something and ends in an outcome, or in the reason for which an observer refused
what it was handed. -/
def unlessRefused (seen : List Event) (refusal : Option String) (outcome : Except Fault α) : Run α :=
  match refusal with
  | none => ⟨seen, outcome⟩
  | some reason => ⟨seen, .error (.refused reason)⟩

/-- A run that goes on to an outcome of its own, unless it is refused, ends in that outcome. -/
theorem unlessRefused_bind (seen : List Event) (refusal : Option String) (value : α)
    (outcome : Except Fault β) :
    (unlessRefused seen refusal (.ok value) >>= fun _ => ⟨[], outcome⟩) =
      unlessRefused seen refusal outcome := by
  cases refusal with
  | none =>
    show (⟨seen ++ [], outcome⟩ : Run β) = ⟨seen, outcome⟩
    rw [List.append_nil]
  | some reason => rfl

/-- What is seen of a run that is not refused comes before what is seen of another one. -/
theorem unlessRefused_none_bind (seen more : List Event) (refusal : Option String) (value : α)
    (outcome : Except Fault β) :
    (unlessRefused seen none (.ok value) >>= fun _ => unlessRefused more refusal outcome) =
      unlessRefused (seen ++ more) refusal outcome := by
  cases refusal <;> rfl

/-- A fault is handled behind what was seen before it. -/
theorem recover_of_error {run : Run α} {fault : Fault} (failed : run.outcome = .error fault)
    (handle : Fault → Run α) :
    run.recover handle = ⟨run.events ++ (handle fault).events, (handle fault).outcome⟩ := by
  rw [recover, failed]

/-- A run without a fault stays as it is. -/
theorem recover_of_ok {run : Run α} {value : α} (done : run.outcome = .ok value)
    (handle : Fault → Run α) : run.recover handle = run := by
  unfold recover
  split
  · next same => rw [← same]
  · next failed =>
    rw [done] at failed
    cases failed

end Run

/-- Handing a diagnostic to an optional sink does one of these things. -/
theorem Sink.exists_reported (sink : Option Sink) (diagnostic : Diagnostic) :
    ∃ seen refusal, Reported sink diagnostic seen refusal ∧
      report? sink diagnostic = Run.unlessRefused seen refusal (.ok ()) := by
  cases sink with
  | none => exact ⟨[], none, .nobody rfl, rfl⟩
  | some receiver =>
    rw [report?, report]
    cases reply : receiver diagnostic with
    | ok _ => exact ⟨_, none, .taken rfl reply, rfl⟩
    | error reason => exact ⟨[], some reason, .refused rfl reply, rfl⟩

/-- An event below the level of a logger has no line. -/
theorem Logger.line?_eq_none_iff {logger : Logger} {level : LogLevel} {event : String}
    {metadata : Fields Log.Value} :
    logger.line? level event metadata = none ↔ level.priority < logger.minLevel.priority := by
  rw [line?]
  split <;> simp_all

/-- Writing an event to an optional logger does one of these things. -/
theorem Logger.exists_told (logger : Option Logger) (level : LogLevel) (event : String)
    (metadata : Fields Log.Value) :
    ∃ seen refusal, Told logger level event metadata seen refusal ∧
      log? logger level event metadata = Run.unlessRefused seen refusal (.ok ()) := by
  cases logger with
  | none => exact ⟨[], none, .nobody rfl, rfl⟩
  | some writer =>
    rw [log?, log]
    cases line : writer.line? level event metadata with
    | none => exact ⟨[], none, .below rfl (line?_eq_none_iff.mp line), rfl⟩
    | some line' =>
      cases reply : writer.accept line' with
      | ok _ => exact ⟨_, none, .written rfl line reply, by simp only [reply]; rfl⟩
      | error reason => exact ⟨[], some reason, .refused rfl line reply, by simp only [reply]; rfl⟩

/-- Nothing is reported by writing an event. -/
theorem Logger.Told.diagnostics_eq_nil {α : Type} {logger : Option Logger} {level : LogLevel}
    {event : String} {metadata : Fields Log.Value} {seen : List Event} {refusal : Option String}
    (told : Told logger level event metadata seen refusal) (outcome : Except Fault α) :
    (Run.unlessRefused seen refusal outcome).diagnostics = [] := by
  cases told <;> rfl

/-! ## Readings -/

section

variable {path : String} {data : ScriptData} {sink : Option Sink} {logger : Option Logger}
  {contents : Contents} {failure : LinkFailure}

/-- **Nothing but a failure of the script is reported.**  Whatever else the attempt fails with comes
out as it is, with nothing more to be seen. -/
theorem readScript_of_other {fault : Fault}
    (failed : (attemptScript path data logger).outcome = .error fault)
    (other : ∀ failure, fault ≠ .parse (.link failure)) :
    readScript path data sink logger = attemptScript path data logger := by
  have same : attemptScript path data logger =
      ⟨(attemptScript path data logger).events ++ [], .error fault⟩ := by
    rw [List.append_nil, ← failed]
  rw [readScript, Run.recover_of_error failed]
  refine Eq.trans ?_ same.symm
  split
  · next failure => exact absurd rfl (other failure)
  · rfl

/-- What is logged of a script that is read: its path, its architecture if it has one, and how many
libraries it names. -/
theorem parsedMetadata_eq (path : String) (contents : Contents) :
    parsedMetadata path contents =
      [("path", .str path), ("cpu_arch", (contents.cpuArch.map (.str ·.name)).getD .null),
        ("entry_count", .nat contents.entries.length)] := by
  rw [parsedMetadata]
  cases contents.cpuArch <;> rfl

/-- What an attempt is when the script is read: it is logged. -/
theorem attemptScript_of_ok (read : parse data.source = .ok contents) :
    attemptScript path data logger =
      Logger.log? logger .debug "ld_script_parsed" (parsedMetadata path contents) >>= fun _ =>
        pure { contents with path } := by
  rw [attemptScript, read]
  rfl

/-- What an attempt is when the script is refused: nothing is seen. -/
theorem attemptScript_of_error {fault : ParseFault} (refused : parse data.source = .error fault) :
    attemptScript path data logger = ⟨[], .error (.parse fault)⟩ := by
  rw [attemptScript, refused]
  rfl

/-- What comes of an attempt when the script is read: what comes of logging it, and the script. -/
theorem attemptScript_told (read : parse data.source = .ok contents) : ∃ seen refusal,
    Logger.Told logger .debug "ld_script_parsed"
      [("path", .str path), ("cpu_arch", (contents.cpuArch.map (.str ·.name)).getD .null),
        ("entry_count", .nat contents.entries.length)] seen refusal ∧
    attemptScript path data logger =
      Run.unlessRefused seen refusal (.ok ⟨⟨contents.cpuArch, contents.entries⟩, path⟩) := by
  obtain ⟨seen, refusal, told, logged⟩ :=
    Logger.exists_told logger .debug "ld_script_parsed" (parsedMetadata path contents)
  rw [parsedMetadata_eq] at told
  refine ⟨seen, refusal, told, ?_⟩
  rw [attemptScript_of_ok read, logged]
  exact Run.unlessRefused_bind _ _ _ _

/-- An attempt reports nothing. -/
theorem diagnostics_attemptScript :
    (attemptScript path data logger).diagnostics = [] := by
  cases outcome : parse data.source with
  | error fault =>
    rw [attemptScript_of_error outcome]
    rfl
  | ok contents =>
    obtain ⟨seen, refusal, told, attempt⟩ := attemptScript_told outcome
    rw [attempt]
    exact told.diagnostics_eq_nil _

/-- A script that is read is only logged. -/
theorem readScript_of_ok (read : parse data.source = .ok contents) :
    readScript path data sink logger = attemptScript path data logger := by
  obtain ⟨seen, refusal, -, attempt⟩ := attemptScript_told read
  cases refusal with
  | none => exact Run.recover_of_ok (congrArg Run.outcome attempt) _
  | some reason => exact readScript_of_other (congrArg Run.outcome attempt) (by simp)

/-- What comes of a refusal behind its report: what comes of logging it, and its failure. -/
theorem rejection_told (path : String) (failure : LinkFailure) (logger : Option Logger) :
    ∃ seen refusal,
      Logger.Told logger .warn "ld_script_rejected"
        [("path", .str path), ("code", .str failure.code), ("message", .str failure.message)]
        seen refusal ∧
      (Logger.log? logger .warn "ld_script_rejected" (rejectedMetadata path failure) >>= fun _ =>
        (Run.fail (.parse (.link failure)) : Run Script)) =
        Run.unlessRefused seen refusal (.error (.parse (.link failure))) := by
  obtain ⟨seen, refusal, told, logged⟩ :=
    Logger.exists_told logger .warn "ld_script_rejected" (rejectedMetadata path failure)
  refine ⟨seen, refusal, told, ?_⟩
  rw [logged]
  exact Run.unlessRefused_bind _ _ _ _

/-- A script that is refused is reported and then logged, before the run ends in its failure. -/
theorem readScript_of_link (refused : parse data.source = .error (.link failure)) :
    readScript path data sink logger =
      Sink.report? sink (Diagnostic.ofFailure path failure) >>= fun _ =>
        Logger.log? logger .warn "ld_script_rejected" (rejectedMetadata path failure) >>= fun _ =>
          Run.fail (.parse (.link failure)) := by
  rw [readScript, attemptScript_of_error refused]
  rfl

end

/-- **What observers of a reading come to know.**  A script that is read is logged once, with its
path, its architecture and the number of its libraries, and nothing is reported.  One that is refused
is reported once, as an error with the path and the place, the message and the code of its failure;
then it is logged once, with the same code and message; and then the run ends in that failure.  Any
other fault of the parser ends the run with nothing to be seen.  An observer that refuses what it is
handed ends the run there, in its own reason. -/
theorem readScript_effects (path : String) (data : ScriptData) (sink : Option Sink)
    (logger : Option Logger) :
    let source := match data with
      | .bytes given => given
      | .text given => Text.Utf8.encode given
    let run := readScript path data sink logger
    (∀ contents, parse source = .ok contents → ∃ seen refusal,
      Logger.Told logger .debug "ld_script_parsed"
        [("path", .str path), ("cpu_arch", (contents.cpuArch.map (.str ·.name)).getD .null),
          ("entry_count", .nat contents.entries.length)] seen refusal ∧
      run = Run.unlessRefused seen refusal
        (.ok ⟨⟨contents.cpuArch, contents.entries⟩, path⟩) ∧
      run.diagnostics = []) ∧
    (∀ failure, parse source = .error (.link failure) → ∃ seen refusal,
      Sink.Reported sink ⟨.error, path, some failure.position, failure.message, "ldscript",
        some failure.code⟩ seen refusal ∧
      (∀ reason, refusal = some reason → run = ⟨seen, .error (.refused reason)⟩) ∧
      (refusal = none → ∃ more refusal',
        Logger.Told logger .warn "ld_script_rejected"
          [("path", .str path), ("code", .str failure.code), ("message", .str failure.message)]
          more refusal' ∧
        run = Run.unlessRefused (seen ++ more) refusal' (.error (.parse (.link failure))))) ∧
    (∀ fault, parse source = .error fault → (∀ failure, fault ≠ .link failure) →
      run = ⟨[], .error (.parse fault)⟩) := by
  intro source
  have made : source = data.source := by cases data <;> rfl
  rw [made]
  refine ⟨?_, ?_, ?_⟩
  · intro contents read
    obtain ⟨seen, refusal, told, attempt⟩ := attemptScript_told read
    rw [readScript_of_ok read]
    exact ⟨seen, refusal, told, attempt, diagnostics_attemptScript⟩
  · intro failure refused
    obtain ⟨seen, refusal, reported, handed⟩ :=
      Sink.exists_reported sink (Diagnostic.ofFailure path failure)
    have run : readScript path data sink logger = _ := readScript_of_link refused
    rw [handed] at run
    refine ⟨seen, refusal, reported, ?_, ?_⟩
    · rintro reason rfl
      exact run
    · rintro rfl
      obtain ⟨more, refusal', told, ends⟩ := rejection_told path failure logger
      refine ⟨more, refusal', told, ?_⟩
      rw [run, ends]
      exact Run.unlessRefused_none_bind _ _ _ _ _
  · intro fault failed other
    have attempt : attemptScript path data logger = ⟨[], .error (.parse fault)⟩ :=
      attemptScript_of_error failed
    rw [readScript_of_other (congrArg Run.outcome attempt), attempt]
    rintro failure same
    exact other failure (Fault.parse.inj same)

end LinkScript
