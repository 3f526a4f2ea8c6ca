import LinkScript.Settings
import Mathlib.Data.List.Infix

/-!
# Where settings come from

Settings come from a file and from variables, and both are looked at before either is used.

* `Tree.IsNearest` is the nearest entry of a name at or above a place, said of all places on the way
  at once; `Tree.nearest_spec` says that the walk up finds it.
* `Settings.Consults` is what there is to be known from the file, and
  `Settings.fileVariables_consults` that it is read from there.
* `Variables.faults` lists the complaints about variables.  The first of them stops the program, and
  without any the variables win over what was set before (`Settings.apply_spec`).
* `Context.load_precedence` puts this together for the settings and for the context of a command.
-/

namespace LinkScript

/-! ## The nearest entry -/

namespace Tree

/-- An entry of a given name in a directory at or above a place, such that no directory closer to
the place has an entry of this name. -/
structure IsNearest (root : Tree) (name : String) (place above : Path) (entry : Tree) : Prop where
  isAbove : above <+: place
  found : root.locate (above ++ [name]) = .ok entry
  closest : ∀ closer, closer <+: place → above.length < closer.length →
    ∀ other, root.locate (closer ++ [name]) ≠ .ok other

/-- No directory at or above a place has an entry of a given name. -/
def Lacks (root : Tree) (name : String) (place : Path) : Prop :=
  ∀ above, above <+: place → ∀ entry, root.locate (above ++ [name]) ≠ .ok entry

variable {root : Tree} {name last : String} {place above other : Path} {entry found : Tree}

/-- There is only one nearest entry. -/
theorem IsNearest.unique (h : root.IsNearest name place above entry)
    (h' : root.IsNearest name place other found) : entry = found := by
  rcases Nat.lt_trichotomy above.length other.length with closer | same | closer
  · exact absurd h'.found (h.closest other h'.isAbove closer found)
  · have places : above = other :=
      (List.prefix_of_prefix_length_le h.isAbove h'.isAbove same.le).eq_of_length same
    have found := h.found
    rw [places, h'.found] at found
    exact (Except.ok.inj found).symm
  · exact absurd h.found (h'.closest above h.isAbove closer entry)

/-- Where an entry is the nearest, not all entries are missing. -/
theorem IsNearest.not_lacks (h : root.IsNearest name place above entry) :
    ¬ root.Lacks name place := fun lacks => lacks above h.isAbove entry h.found

/-- What is nearest from a place is nearest from further below if there is nothing in between. -/
theorem IsNearest.below (h : root.IsNearest name place above entry)
    (nothing : ∀ other, root.locate (place ++ [last] ++ [name]) ≠ .ok other) :
    root.IsNearest name (place ++ [last]) above entry := by
  refine ⟨h.isAbove.trans (List.prefix_append _ _), h.found, ?_⟩
  intro closer isAbove longer
  rcases List.prefix_concat_iff.mp isAbove with rfl | above
  · exact nothing
  · exact h.closest closer above longer

/-- **The walk up finds the nearest entry**, and finds nothing only if there is none.  The place is
given from its last name to its first. -/
theorem nearest_spec (root : Tree) (name : String) (reversed : Path) :
    (∃ above entry, root.nearest name reversed = some entry ∧
      root.IsNearest name reversed.reverse above entry) ∨
    (root.nearest name reversed = none ∧ root.Lacks name reversed.reverse) := by
  induction reversed with
  | nil =>
    rw [nearest, List.reverse_nil]
    cases found : root.locate [name] with
    | error absent =>
      refine Or.inr ⟨rfl, ?_⟩
      intro above isAbove entry
      rw [List.prefix_nil.mp isAbove, List.nil_append, found]
      exact fun h => by cases h
    | ok entry =>
      refine Or.inl ⟨[], entry, rfl, List.prefix_rfl, found, ?_⟩
      intro closer isAbove longer
      rw [List.prefix_nil.mp isAbove] at longer
      exact absurd longer (lt_irrefl _)
  | cons last reversed ih =>
    rw [nearest, List.reverse_cons]
    cases found : root.locate (reversed.reverse ++ [last] ++ [name]) with
    | ok entry =>
      refine Or.inl ⟨reversed.reverse ++ [last], entry, rfl, List.prefix_rfl, found, ?_⟩
      intro closer isAbove longer
      exact absurd isAbove.length_le (not_le.mpr longer)
    | error absent =>
      have nothing : ∀ other, root.locate (reversed.reverse ++ [last] ++ [name]) ≠ .ok other := by
        intro other same
        rw [found] at same
        cases same
      rcases ih with ⟨above, entry, isFound, isNearest⟩ | ⟨isFound, lacks⟩
      · exact Or.inl ⟨above, entry, isFound, isNearest.below nothing⟩
      · refine Or.inr ⟨isFound, ?_⟩
        intro above isAbove
        rcases List.prefix_concat_iff.mp isAbove with rfl | above
        · exact nothing
        · exact lacks _ above

end Tree

/-! ## The file -/

namespace Settings

/-- What there is to be known from a file of settings for a working directory: nothing is set if no
directory at or above it has an entry `.env`, and otherwise only the nearest of these counts, whether
it can be read or not. -/
inductive Consults (root : Tree) (cwd : Path) : Except FileFault Variables → Prop where
  | nothing : root.Lacks ".env" cwd → Consults root cwd (.ok ⟨none, none⟩)
  | unreadable {above : Path} {children : List (String × Tree)} :
      root.IsNearest ".env" cwd above (.directory children) →
      Consults root cwd (.error .isDirectory)
  | file {above : Path} {contents : Bytes} {fields : Fields String} :
      root.IsNearest ".env" cwd above (.file contents) →
      fields = EnvFile.parse (Text.Utf8.decodeKeepingMark contents) →
      Consults root cwd
        (.ok ⟨fields.get? "LDSCRIPT_LOG_LEVEL", fields.get? "LDSCRIPT_FORMAT"⟩)

section

variable {root : Tree} {cwd : Path} {consulted other : Except FileFault Variables}

/-- Only one thing is to be known. -/
theorem Consults.unique (h : Consults root cwd consulted) (h' : Consults root cwd other) :
    other = consulted := by
  cases h with
  | nothing lacks =>
    cases h' with
    | nothing => rfl
    | unreadable nearest => exact absurd lacks nearest.not_lacks
    | file nearest => exact absurd lacks nearest.not_lacks
  | unreadable nearest =>
    cases h' with
    | nothing lacks => exact absurd lacks nearest.not_lacks
    | unreadable => rfl
    | file nearest' => cases nearest.unique nearest'
  | file nearest fields =>
    cases h' with
    | nothing lacks => exact absurd lacks nearest.not_lacks
    | unreadable nearest' => cases nearest.unique nearest'
    | file nearest' fields' =>
      cases nearest.unique nearest'
      rw [fields, fields']

/-- What is set by the file that is read, or by none. -/
def fileVariables (root : Tree) (cwd : Path) : Except FileFault Variables :=
  (envFile root cwd).map fun file => (file.map Variables.ofFields).getD {}

/-- **The file of settings is the nearest one.** -/
theorem fileVariables_consults (root : Tree) (cwd : Path) :
    Consults root cwd (fileVariables root cwd) := by
  have spec := root.nearest_spec ".env" cwd.reverse
  rw [List.reverse_reverse] at spec
  unfold fileVariables envFile
  rcases spec with ⟨above, entry, found, nearest⟩ | ⟨found, lacks⟩
  · rw [found]
    cases entry with
    | file contents => exact .file nearest rfl
    | directory children => exact .unreadable nearest
  · rw [found]
    exact .nothing lacks

end

end Settings

/-! ## The variables -/

/-- What is looked for by its name is found exactly if the name is there. -/
theorem find?_name_cases {α : Type} (name : α → String) (all : List α) (text : String) :
    (text ∉ all.map name ∧ all.find? (name · == text) = none) ∨
    (text ∈ all.map name ∧ ∃ value, all.find? (name · == text) = some value ∧
      name value = text) := by
  cases found : all.find? (name · == text) with
  | none =>
    refine Or.inl ⟨?_, rfl⟩
    rw [List.mem_map]
    rintro ⟨value, mem, same⟩
    exact List.find?_eq_none.mp found value mem (beq_iff_eq.mpr same)
  | some value =>
    have same : name value = text := by simpa using List.find?_some found
    exact Or.inr ⟨same ▸ List.mem_map_of_mem (List.mem_of_find?_eq_some found), value, rfl, same⟩

/-- A text names one of the five levels or none. -/
theorem LogLevel.ofName?_cases (text : String) :
    (text ∉ ["debug", "info", "warn", "error", "fatal"] ∧ ofName? text = none) ∨
    (text ∈ ["debug", "info", "warn", "error", "fatal"] ∧
      ∃ level, ofName? text = some level ∧ level.name = text) :=
  find?_name_cases name all text

/-- A text names one of the two formats or none. -/
theorem OutputFormat.ofName?_cases (text : String) :
    (text ∉ ["pretty", "json"] ∧ ofName? text = none) ∨
    (text ∈ ["pretty", "json"] ∧ ∃ format, ofName? text = some format ∧ format.name = text) :=
  find?_name_cases name [pretty, json] text

/-- The complaint about a value that is set and is none of the names there are. -/
def complaints (names : List String) (complaint : String → SettingFault)
    (value : Option String) : List SettingFault :=
  (value.toList.filter (· ∉ names)).map complaint

section

variable {names : List String} {complaint : String → SettingFault} {value : String}

/-- Nothing is wrong with a value that is not given. -/
@[simp] theorem complaints_none : complaints names complaint none = [] := rfl

/-- Nothing is wrong with a value that is one of the names. -/
theorem complaints_of_mem (mem : value ∈ names) : complaints names complaint (some value) = [] := by
  simp [complaints, mem]

/-- A value that is none of the names is complained about. -/
theorem complaints_of_not_mem (mem : value ∉ names) :
    complaints names complaint (some value) = [complaint value] := by
  simp [complaints, mem]

end

/-- The complaints about variables, the level before the format. -/
def Variables.faults (env : Variables) : List SettingFault :=
  complaints ["debug", "info", "warn", "error", "fatal"] .invalidLogLevel env.logLevel ++
    complaints ["pretty", "json"] .invalidFormat env.format

namespace Settings

variable (settings : Settings)

/-- Setting the level ends in the complaint about it if there is one, and otherwise in the level that
is set, if any is. -/
theorem setLogLevel_spec (value : Option String) :
    let faults := complaints ["debug", "info", "warn", "error", "fatal"] .invalidLogLevel value
    (∃ fault, faults = [fault] ∧ settings.setLogLevel value = .error fault) ∨
    (faults = [] ∧ ∃ level, settings.setLogLevel value = .ok { settings with logLevel := level } ∧
      level.map LogLevel.name = value.or (settings.logLevel.map LogLevel.name)) := by
  intro faults
  cases value with
  | none => exact Or.inr ⟨rfl, settings.logLevel, rfl, rfl⟩
  | some value =>
    rcases LogLevel.ofName?_cases value with ⟨unknown, found⟩ | ⟨known, level, found, same⟩
    · exact Or.inl ⟨_, complaints_of_not_mem unknown, by rw [setLogLevel, found]⟩
    · refine Or.inr ⟨complaints_of_mem known, some level, by rw [setLogLevel, found], ?_⟩
      exact congrArg some same

/-- Setting the format ends in the complaint about it if there is one, and otherwise in the format
that is set, if any is. -/
theorem setFormat_spec (value : Option String) :
    let faults := complaints ["pretty", "json"] .invalidFormat value
    (∃ fault, faults = [fault] ∧ settings.setFormat value = .error fault) ∨
    (faults = [] ∧ ∃ format, settings.setFormat value = .ok { settings with format := format } ∧
      format.map OutputFormat.name = value.or (settings.format.map OutputFormat.name)) := by
  intro faults
  cases value with
  | none => exact Or.inr ⟨rfl, settings.format, rfl, rfl⟩
  | some value =>
    rcases OutputFormat.ofName?_cases value with ⟨unknown, found⟩ | ⟨known, format, found, same⟩
    · exact Or.inl ⟨_, complaints_of_not_mem unknown, by rw [setFormat, found]⟩
    · refine Or.inr ⟨complaints_of_mem known, some format, by rw [setFormat, found], ?_⟩
      exact congrArg some same

/-- The names of what is set. -/
def names : Variables := ⟨settings.logLevel.map LogLevel.name, settings.format.map OutputFormat.name⟩

/-- **Variables on top of settings** end in the first complaint about them.  If there is none they
win, each where it is set. -/
theorem apply_spec (env : Variables) :
    (∃ fault more, env.faults = fault :: more ∧ settings.apply env = .error fault) ∨
    (env.faults = [] ∧ ∃ after, settings.apply env = .ok after ∧
      after.names =
        ⟨env.logLevel.or settings.names.logLevel, env.format.or settings.names.format⟩) := by
  rw [Variables.faults, apply]
  rcases settings.setLogLevel_spec env.logLevel with
    ⟨fault, faults, set⟩ | ⟨faults, level, set, levelName⟩
  · exact Or.inl ⟨fault, _, congrArg (· ++ _) faults, by rw [set]; rfl⟩
  rw [faults, set, List.nil_append]
  rcases setFormat_spec { settings with logLevel := level } env.format with
    ⟨fault, faults, set⟩ | ⟨faults, format, set, formatName⟩
  · exact Or.inl ⟨fault, [], faults, set⟩
  · refine Or.inr ⟨faults, { logLevel := level, format := format }, set, ?_⟩
    rw [names, levelName, formatName]
    rfl

/-! ## The settings -/

section

variable {root : Tree} {cwd : Path} {env file : Variables}

/-- A file that cannot be read stops everything. -/
theorem load_of_unreadable {fault : FileFault} (unreadable : fileVariables root cwd = .error fault) :
    load root cwd env = .error (.file fault) := by
  rw [fileVariables] at unreadable
  rw [load]
  cases read : envFile root cwd with
  | error other =>
    rw [read] at unreadable
    cases unreadable
    rfl
  | ok fields =>
    rw [read] at unreadable
    cases unreadable

/-- The variables are put on top of what the file sets, which is put on top of nothing. -/
theorem load_of_readable (readable : fileVariables root cwd = .ok file) :
    load root cwd env = ((apply {} file).bind (·.apply env)).mapError Fault.setting := by
  rw [fileVariables] at readable
  rw [load]
  rcases read : envFile root cwd with fault | (_ | fields)
  · rw [read] at readable
    cases readable
  · rw [read] at readable
    cases readable
    rfl
  · rw [read] at readable
    cases readable
    show Except.bind (Except.mapError _ (apply {} (.ofFields fields))) _ =
      Except.mapError _ (Except.bind (apply {} (.ofFields fields)) _)
    cases apply {} (.ofFields fields) <;> rfl

/-- **The first complaint about the file or the variables** stops everything.  Without any, each
setting is that of the variables if they have it, and that of the file otherwise. -/
theorem load_spec (readable : fileVariables root cwd = .ok file) (env : Variables) :
    (∃ fault more, file.faults ++ env.faults = fault :: more ∧
      load root cwd env = .error (.setting fault)) ∨
    (file.faults ++ env.faults = [] ∧ ∃ settings, load root cwd env = .ok settings ∧
      settings.names = ⟨env.logLevel.or file.logLevel, env.format.or file.format⟩) := by
  rw [load_of_readable readable]
  rcases apply_spec {} file with ⟨fault, more, faults, applied⟩ | ⟨faults, first, applied, known⟩
  · exact Or.inl ⟨fault, _, by rw [faults]; rfl, by rw [applied]; rfl⟩
  rw [faults, applied, List.nil_append]
  show _ ∨ _ ∧ ∃ settings, (first.apply env).mapError Fault.setting = _ ∧ _
  rcases first.apply_spec env with ⟨fault, more, faults, applied⟩ | ⟨faults, last, applied, names⟩
  · exact Or.inl ⟨fault, more, faults, by show (first.apply env).mapError _ = _; rw [applied]; rfl⟩
  · refine Or.inr ⟨faults, last, by rw [applied]; rfl, ?_⟩
    rw [names, known]
    simp [Settings.names]

end

end Settings

/-! ## The context of a command -/

namespace Context

variable {settings : Settings} {command timestamp : String} {formatOption : Option String}

/-- The name of the format that is chosen: by the option, by the settings, or for people. -/
def chosenFormat (settings : Settings) (formatOption : Option String) : String :=
  formatOption.getD ((settings.format.map OutputFormat.name).getD "pretty")

/-- The format that is asked for is the one that is chosen. -/
theorem getD_name_eq_chosenFormat : formatOption.getD (settings.format.getD .pretty).name =
    chosenFormat settings formatOption := by
  unfold chosenFormat
  cases settings.format <;> rfl

/-- An unknown format makes no context. -/
theorem create_of_unknown (unknown : chosenFormat settings formatOption ∉ ["pretty", "json"]) :
    create settings command formatOption timestamp =
      .error (.setting (.unknownFormat (chosenFormat settings formatOption))) := by
  rcases OutputFormat.ofName?_cases (chosenFormat settings formatOption) with
    ⟨-, found⟩ | ⟨known, -⟩
  · rw [create, getD_name_eq_chosenFormat]
    simp only [found]
  · exact absurd known unknown

/-- A known format makes a context with it, and with a logger for the level of the settings. -/
theorem create_of_known (known : chosenFormat settings formatOption ∈ ["pretty", "json"]) :
    ∃ context, create settings command formatOption timestamp = .ok context ∧
      context.format.name = chosenFormat settings formatOption ∧
      context.logger.minLevel = settings.logLevel.getD .error ∧
      context.logger.environment = .production ∧
      context.logger.metadata = [("command", .str command)] := by
  rcases OutputFormat.ofName?_cases (chosenFormat settings formatOption) with
    ⟨unknown, -⟩ | ⟨-, format, found, same⟩
  · exact absurd known unknown
  · rw [create, getD_name_eq_chosenFormat]
    simp only [found]
    exact ⟨_, rfl, same, rfl, rfl, rfl⟩

/-- **Who has the last word on settings, and who the first on complaints.**  Exactly one thing is
known from a file of settings: what the nearest `.env` sets, that it cannot be read, or that there is
none.  If it cannot be read, its fault stops everything.  Otherwise the first complaint does, those
about the file before those about the variables, and the level before the format in both.  Without
complaints each setting is that of the variables if they have it, and that of the file otherwise.

A command gets no context exactly if there are no settings or the format that is chosen is unknown.
Otherwise it gets that format, and a logger for the level of the settings, or for errors. -/
theorem load_precedence (root : Tree) (cwd : Path) (env : Variables) (command : String)
    (formatOption : Option String) (timestamp : String) :
    let loaded := Settings.load root cwd env
    let made := load root cwd env command formatOption timestamp
    (∃ consulted, Settings.Consults root cwd consulted ∧
      (∀ other, Settings.Consults root cwd other → other = consulted) ∧
      (∀ fault, consulted = .error fault → loaded = .error (.file fault)) ∧
      ∀ file, consulted = .ok file →
        (∀ fault more, file.faults ++ env.faults = fault :: more →
          loaded = .error (.setting fault)) ∧
        (file.faults ++ env.faults = [] → ∃ settings, loaded = .ok settings ∧
          settings.logLevel.map LogLevel.name = env.logLevel.or file.logLevel ∧
          settings.format.map OutputFormat.name = env.format.or file.format)) ∧
    (∀ fault, loaded = .error fault → made = .error fault) ∧
    ∀ settings, loaded = .ok settings →
      let chosen := chosenFormat settings formatOption
      (chosen ∉ ["pretty", "json"] → made = .error (.setting (.unknownFormat chosen))) ∧
      (chosen ∈ ["pretty", "json"] → ∃ context, made = .ok context ∧
        context.format.name = chosen ∧
        context.logger.minLevel = settings.logLevel.getD .error ∧
        context.logger.environment = .production ∧
        context.logger.metadata = [("command", .str command)]) := by
  intro loaded made
  refine ⟨⟨Settings.fileVariables root cwd, Settings.fileVariables_consults root cwd, ?_, ?_, ?_⟩,
    ?_, ?_⟩
  · intro other known
    exact (Settings.fileVariables_consults root cwd).unique known
  · intro fault unreadable
    exact Settings.load_of_unreadable unreadable
  · intro file readable
    rcases Settings.load_spec readable env with ⟨first, rest, faults, load⟩ | ⟨none, settings, load⟩
    · rw [faults]
      refine ⟨?_, nofun⟩
      intro fault more same
      rw [← (List.cons.inj same).1]
      exact load
    · rw [none]
      refine ⟨nofun, fun _ => ⟨settings, load.1, ?_, ?_⟩⟩
      · exact congrArg Variables.logLevel load.2
      · exact congrArg Variables.format load.2
  · intro fault failed
    show Except.bind loaded _ = _
    rw [failed]
    rfl
  · intro settings done chosen
    have create : made = create settings command formatOption timestamp := by
      show Except.bind loaded _ = _
      rw [done]
      rfl
    rw [create]
    exact ⟨create_of_unknown, create_of_known⟩

/-- A value of the file stops a command although the variables would have won over it. -/
example :
    (load (.directory [(".env", .file (Text.Utf8.encode "LDSCRIPT_FORMAT=xml"))]) []
      { format := some "json" } "check" none "").map Context.format =
      .error (.setting (.invalidFormat "xml")) := by
  decide +kernel

end Context

end LinkScript
