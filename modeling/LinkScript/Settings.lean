import LinkScript.Files.Tree
import LinkScript.Log

/-!
# Settings

The program has two settings, the lowest level of its log and the format of its output.  They are
taken from the nearest `.env` file at or above the working directory, and then from the variables
of the process, which win.  A variable that is set has to make sense, an empty one too, and the
first that does not stops the program.

A `.env` file sets one name a line, with an equals sign before the value.  Empty lines, lines
that begin with `#` and lines without an equals sign say nothing.  Blanks around the name and
around the value do not count, and one pair of quotation marks of either kind around the whole
value is taken off.  A later line for a name wins, and nothing can be set for the name
`__proto__`.
-/

/-! ## Files of settings -/

namespace LinkScript.EnvFile

/-- A value without a pair of quotation marks around it. -/
def unquote (value : List Char) : List Char :=
  match value with
  | first :: rest =>
    if (first = '"' ∨ first = '\'') ∧ rest ≠ [] ∧ rest.getLast? = some first then rest.dropLast
    else value
  | [] => []

/-- The name and the value that a line sets. -/
def assignment? (line : List Char) : Option (String × String) :=
  let line := Text.trim line
  if line.head? = some '#' then none
  else
    (Text.cutFirst '=' line).map fun (name, value) =>
      (String.ofList (Text.trim name), String.ofList (unquote (Text.trim value)))

/-- The names and values that the lines of a text set, in order. -/
def assignments (text : List Char) : List (String × String) :=
  (Text.splitAt '\n' text).filterMap assignment?

/-- The values that a file of settings gives. -/
def parse (text : String) : Fields String :=
  (Fields.ofList (assignments text.toList)).erase "__proto__"

end LinkScript.EnvFile

/-! ## The settings of the program -/

namespace LinkScript

/-- The formats of the program's output. -/
inductive OutputFormat where
  | pretty
  | json
  deriving Repr, DecidableEq

namespace OutputFormat

/-- The name of a format. -/
def name : OutputFormat → String
  | pretty => "pretty"
  | json => "json"

/-- The format with a given name. -/
def ofName? (text : String) : Option OutputFormat := [pretty, json].find? (·.name == text)

end OutputFormat

/-- The variables that the program looks at, as they are set. -/
structure Variables where
  logLevel : Option String := none
  format : Option String := none
  deriving Repr, DecidableEq

/-- The variables that a file of settings sets. -/
def Variables.ofFields (fields : Fields String) : Variables :=
  ⟨fields.get? "LDSCRIPT_LOG_LEVEL", fields.get? "LDSCRIPT_FORMAT"⟩

/-- What the program has been told to do. -/
structure Settings where
  logLevel : Option LogLevel := none
  format : Option OutputFormat := none
  deriving Repr, DecidableEq

namespace Settings

/-- The settings with the level of a variable. -/
def setLogLevel (settings : Settings) : Option String → Except SettingFault Settings
  | none => .ok settings
  | some value =>
    match LogLevel.ofName? value with
    | some level => .ok { settings with logLevel := some level }
    | none => .error (.invalidLogLevel value)

/-- The settings with the format of a variable. -/
def setFormat (settings : Settings) : Option String → Except SettingFault Settings
  | none => .ok settings
  | some value =>
    match OutputFormat.ofName? value with
    | some format => .ok { settings with format := some format }
    | none => .error (.invalidFormat value)

/-- The settings with what variables set on top, the level before the format. -/
def apply (settings : Settings) (env : Variables) : Except SettingFault Settings := do
  (← settings.setLogLevel env.logLevel).setFormat env.format

/-- What the nearest `.env` file at or above a place sets, if there is one. -/
def envFile (root : Tree) (cwd : Path) : Except FileFault (Option (Fields String)) :=
  match root.nearest ".env" cwd.reverse with
  | none => .ok none
  | some (.file contents) => .ok (some (EnvFile.parse (Text.Utf8.decodeKeepingMark contents)))
  | some (.directory _) => .error .isDirectory

/-- The settings that hold at a place with given variables. -/
def load (root : Tree) (cwd : Path) (env : Variables) : Except Fault Settings := do
  let file ← (envFile root cwd).mapError Fault.file
  let settings ←
    match file with
    | some fields => (apply {} (Variables.ofFields fields)).mapError Fault.setting
    | none => pure {}
  (settings.apply env).mapError Fault.setting

end Settings

/-! ## What a command works with -/

/-- What a command needs besides its arguments. -/
structure Context where
  logger : Logger
  format : OutputFormat

/-- The context of a command from its name, its format option and the settings.  Without a level
in the settings only errors are logged. -/
def Context.create (settings : Settings) (command : String) (formatOption : Option String)
    (timestamp : String) : Except Fault Context := do
  let asked := formatOption.getD ((settings.format.getD .pretty).name)
  match OutputFormat.ofName? asked with
  | none => .error (.setting (.unknownFormat asked))
  | some format =>
    let logger := Logger.create timestamp (some .production)
      (some (settings.logLevel.getD .error)) (fun _ => .ok ())
    return ⟨logger.child [("command", .str command)], format⟩

/-- The context of a command that runs at a place with given variables. -/
def Context.load (root : Tree) (cwd : Path) (env : Variables) (command : String)
    (formatOption : Option String) (timestamp : String) : Except Fault Context := do
  let settings ← Settings.load root cwd env
  Context.create settings command formatOption timestamp

end LinkScript
