import LinkScript.Program
import LinkScript.Text

/-!
# The program on the command line

`CommandLine.run` does what a list of arguments asks for, as a run that ends in the exit code:
zero if all is well, one if a script is malformed or the arguments make no sense, two if the
program could not do its work.

The arguments are read twice.  The program reads all of them for its own options, and what it
does not know goes, from the first unknown option on, to the command that the first operand
names, which reads the rest for its options.  So the options of a command may stand before or
behind its operands, but not before its name.

An option takes its value from the next argument, whatever that is, or from behind an equals
sign.  Two dashes end the options.
-/

namespace LinkScript.CommandLine

/-! ## Commands and their explanations -/

/-- The version of the program. -/
def version : String := "0.1.0"

/-- The commands that do something. -/
inductive Subcommand where
  | check
  | inspect
  deriving Repr, DecidableEq

namespace Subcommand

/-- The name of a command. -/
def name : Subcommand → String
  | check => "check"
  | inspect => "inspect"

/-- Every command. -/
def all : List Subcommand := [check, inspect]

/-- The command with a given name. -/
def ofName? (text : String) : Option Subcommand := all.find? (·.name == text)

end Subcommand

/-- What an option does where it stands. -/
inductive OptionKind where
  /-- It switches something on. -/
  | flag
  /-- It takes a value, called this in messages. -/
  | value (placeholder : String)
  /-- It prints the version, and nothing after it counts. -/
  | version
  deriving Repr, DecidableEq

/-- An option: its one-letter name if it has one, its long name, and what it does. -/
structure OptionSpec where
  short : Option String := none
  long : String
  kind : OptionKind := .flag
  deriving Repr, DecidableEq

namespace OptionSpec

/-- Whether an argument names the option. -/
def isNamed (spec : OptionSpec) (argument : String) : Bool :=
  spec.short == some argument || spec.long == argument

/-- The option as it is written in messages. -/
def flags (spec : OptionSpec) : String :=
  match spec.kind with
  | .value placeholder => spec.long ++ " <" ++ placeholder ++ ">"
  | _ => spec.long

end OptionSpec

/-- The options of the program itself. -/
def programOptions : List OptionSpec := [{ short := some "-V", long := "--version", kind := .version }]

/-- The option for the format of the output. -/
def formatOption : OptionSpec := { long := "--format", kind := .value "type" }

/-- The option against output without trouble. -/
def quietOption : OptionSpec := { long := "--quiet" }

/-- The option against colour. -/
def noColorOption : OptionSpec := { long := "--no-color" }

/-- The options of a command. -/
def Subcommand.options : Subcommand → List OptionSpec
  | check => [formatOption, quietOption, noColorOption]
  | inspect => [formatOption, noColorOption]

/-- The name of the command that explains the others. -/
def helpName : String := "help"

/-- Whether an argument asks for an explanation. -/
def asksForHelp (argument : String) : Bool := argument == "-h" || argument == "--help"

/-- The long names of options that mean something to the program. -/
def programLongNames : List String := programOptions.map (·.long) ++ ["--help"]

/-- The long names of options that mean something behind a command. -/
def Subcommand.longNames (command : Subcommand) : List String :=
  command.options.map (·.long) ++ ["--help"] ++ programLongNames

/-- The names that may stand in the place of a command. -/
def commandNames : List String := Subcommand.all.map (·.name) ++ [helpName]

/-- The explanation of the program, line by line. -/
def programHelp : List String :=
  ["Usage: ldscript [options] [command]",
    "",
    "Inspect and validate linker script stubs such as libc.so",
    "",
    "Options:",
    "  -V, --version               output the version number",
    "  -h, --help                  display help for command",
    "",
    "Commands:",
    "  check [options] [paths...]  Check linker script stubs for errors",
    "  inspect [options] <file>    Show the architecture and libraries a linker",
    "                              script stub resolves to",
    "  help [command]              display help for command"]

/-- The explanation of a command, line by line. -/
def Subcommand.help : Subcommand → List String
  | check =>
    ["Usage: ldscript check [options] [paths...]",
      "",
      "Check linker script stubs for errors",
      "",
      "Arguments:",
      "  paths            Files or directories to check (default: [\".\"])",
      "",
      "Options:",
      "  --format <type>  Output format: pretty, json",
      "  --quiet          Only output on errors",
      "  --no-color       Disable colored output",
      "  -h, --help       display help for command"]
  | inspect =>
    ["Usage: ldscript inspect [options] <file>",
      "",
      "Show the architecture and libraries a linker script stub resolves to",
      "",
      "Arguments:",
      "  file             Linker script to inspect",
      "",
      "Options:",
      "  --format <type>  Output format: pretty, json",
      "  --no-color       Disable colored output",
      "  -h, --help       display help for command"]

/-! ## Options and operands -/

/-- Arguments sorted out: the options given, in order and with their values, the operands, and
the arguments from the first unknown option on. -/
structure Sorted where
  given : List (String × String) := []
  operands : List String := []
  unknown : List String := []
  deriving Repr, DecidableEq

/-- Why the arguments are not read to their end. -/
inductive Stop where
  /-- The version is asked for. -/
  | version
  /-- The value of the last option is missing. -/
  | missingValue (flags : String)
  deriving Repr, DecidableEq

/-- Whether an argument has the form of an option. -/
def looksLikeOption (argument : String) : Bool :=
  match argument.toList with
  | '-' :: _ :: _ => true
  | _ => false

/-- The one-letter option at the front of an argument that holds more than that. -/
def clusterHead? (argument : String) : Option String :=
  match argument.toList with
  | '-' :: letter :: _ :: _ => if letter = '-' then none else some (String.ofList ['-', letter])
  | _ => none

/-- The long option and the value of an argument that holds both. -/
def splitValue? (argument : String) : Option (String × String) :=
  match argument.toList with
  | '-' :: '-' :: rest =>
    match Text.cutFirst '=' rest with
    | some (first :: others, value) =>
      some (String.ofList ('-' :: '-' :: first :: others), String.ofList value)
    | _ => none
  | _ => none

/-- The option among the known ones that an argument is, with the value in the argument. -/
inductive Recognized where
  | whole (spec : OptionSpec)
  | withValue (spec : OptionSpec) (value : String)
  | unknown
  deriving Repr, DecidableEq

/-- The option at the front of a cluster, or the option before an equals sign. -/
def recognizeParts (options : List OptionSpec) (argument : String) : Recognized :=
  match (clusterHead? argument).bind fun head => options.find? (·.isNamed head) with
  | some spec => .whole spec
  | none =>
    match splitValue? argument with
    | none => .unknown
    | some (name, value) =>
      match options.find? (·.isNamed name) with
      | some ⟨short, long, .value placeholder⟩ => .withValue ⟨short, long, .value placeholder⟩ value
      | _ => .unknown

/-- What an argument of the form of an option is. -/
def recognize (options : List OptionSpec) (argument : String) : Recognized :=
  match options.find? (·.isNamed argument) with
  | some spec => .whole spec
  | none => recognizeParts options argument

namespace Sorted

/-- One more option in front. -/
def give (sorted : Sorted) (name value : String) : Sorted :=
  { sorted with given := (name, value) :: sorted.given }

/-- One more argument in front, which is an operand or lies behind an unknown option. -/
def keep (sorted : Sorted) (behindUnknown : Bool) (argument : String) : Sorted :=
  if behindUnknown then { sorted with unknown := argument :: sorted.unknown }
  else { sorted with operands := argument :: sorted.operands }

/-- Sorts arguments out by the options that are known. -/
def ofArguments (options : List OptionSpec) (behindUnknown : Bool) :
    List String → Except Stop Sorted
  | [] => .ok {}
  | argument :: rest =>
    if argument = "--" then
      .ok (if behindUnknown then { unknown := argument :: rest } else { operands := rest })
    else if looksLikeOption argument then
      match recognize options argument with
      | .unknown => (ofArguments options true rest).map (·.keep true argument)
      | .withValue spec value => (ofArguments options behindUnknown rest).map (·.give spec.long value)
      | .whole spec =>
        match spec.kind with
        | .version => .error .version
        | .flag => (ofArguments options behindUnknown rest).map (·.give spec.long "")
        | .value _ =>
          match rest with
          | [] => .error (.missingValue spec.flags)
          | value :: rest => (ofArguments options behindUnknown rest).map (·.give spec.long value)
    else (ofArguments options behindUnknown rest).map (·.keep behindUnknown argument)

/-- The last value given for an option. -/
def value? (sorted : Sorted) (spec : OptionSpec) : Option String :=
  sorted.given.reverse.lookup spec.long

/-- Whether an option is given. -/
def isGiven (sorted : Sorted) (spec : OptionSpec) : Bool := (sorted.value? spec).isSome

end Sorted

/-! ## Complaints -/

/-- The line that proposes a name close to an unknown one, led by a line break.  If the unknown
name begins with two dashes, they and the first two characters of every proposal do not count. -/
def proposal (word : String) (names : List String) : String :=
  let dashed := ['-', '-'].isPrefixOf word.toList
  let behind (text : String) : String := String.ofList (text.toList.drop 2)
  let near :=
    if dashed then (Text.Similarity.nearest (behind word) (names.map behind)).map ("--" ++ ·)
    else Text.Similarity.nearest word names
  match near with
  | [] => ""
  | [name] => "\n(Did you mean " ++ name ++ "?)"
  | several => "\n(Did you mean one of " ++ ", ".intercalate several ++ "?)"

/-- The complaint about an unknown option; only one that begins with two dashes gets a
proposal. -/
def unknownOption (flag : String) (names : List String) : String :=
  "error: unknown option '" ++ flag ++ "'"
    ++ if ['-', '-'].isPrefixOf flag.toList then proposal flag names else ""

/-- The complaint about an unknown command. -/
def unknownCommand (name : String) : String :=
  "error: unknown command '" ++ name ++ "'" ++ proposal name commandNames

/-! ## Requests -/

/-- What the options of a command choose. -/
structure Choices where
  format : Option String := none
  quiet : Bool := false
  noColor : Bool := false
  deriving Repr, DecidableEq

/-- What the program is asked to do. -/
inductive Request where
  | version
  /-- An explanation of the program or of a command, asked for or, if not, deserved. -/
  | help (topic : Option Subcommand) (askedFor : Bool)
  | refused (complaint : String)
  | check (paths : List String) (choices : Choices)
  | inspect (file : String) (choices : Choices)
  deriving Repr, DecidableEq

namespace Request

/-- The request of arguments that are not read to their end. -/
def ofStop : Stop → Request
  | .version => .version
  | .missingValue flags => .refused ("error: option '" ++ flags ++ "' argument missing")

/-- The request of a command with these operands and choices. -/
def ofOperands (command : Subcommand) (operands : List String) (choices : Choices) : Request :=
  match command, operands with
  | .check, [] => .check ["."] choices
  | .check, paths => .check paths choices
  | .inspect, [] => .refused "error: missing required argument 'file'"
  | .inspect, file :: _ => .inspect file choices

/-- The request of a command, from the operands before the first unknown option and the arguments
from there on. -/
def ofSubcommand (command : Subcommand) (operands arguments : List String) : Request :=
  match Sorted.ofArguments command.options false arguments with
  | .error stop => ofStop stop
  | .ok sorted =>
    if sorted.unknown.any asksForHelp then .help (some command) true
    else
      match sorted.unknown with
      | flag :: _ => .refused (unknownOption flag command.longNames)
      | [] =>
        ofOperands command (operands ++ sorted.operands)
          { format := sorted.value? formatOption
            quiet := sorted.isGiven quietOption
            noColor := sorted.isGiven noColorOption }

/-- The request for an explanation of what an operand names. -/
def ofHelp : List String → Request
  | [] => .help none true
  | topic :: _ =>
    if topic = "" then .help none true
    else
      match Subcommand.ofName? topic with
      | some command => .help (some command) true
      | none => .help none false

/-- What the arguments ask for. -/
def ofArguments (arguments : List String) : Request :=
  match Sorted.ofArguments programOptions false arguments with
  | .error stop => ofStop stop
  | .ok sorted =>
    match sorted.operands with
    | name :: operands =>
      match Subcommand.ofName? name with
      | some command => ofSubcommand command operands sorted.unknown
      | none =>
        if name = helpName then ofHelp operands
        else if sorted.unknown.any asksForHelp then .help none true
        else .refused (unknownCommand name)
    | [] =>
      match sorted.unknown with
      | [] => .help none false
      | flag :: others =>
        if (flag :: others).any asksForHelp then .help none true
        else .refused (unknownOption flag programLongNames)

end Request

/-! ## Doing what is asked for -/

/-- The explanation of the program or of a command. -/
def helpText (topic : Option Subcommand) : String :=
  Report.ofLines (match topic with
    | some command => command.help
    | none => programHelp)

/-- Does the work of a command in the context that the settings and its options make.  A fault
becomes a complaint and the exit code two. -/
def withContext (host : Host) (command : Subcommand) (choices : Choices)
    (work : Logger → ReportOptions → Run Nat) : Run Nat :=
  let whole : Run Nat := do
    let context ← Run.ofExcept (Context.load host.root host.cwd host.env command.name
      choices.format host.timestamp)
    work context.logger
      { format := context.format, quiet := choices.quiet, noColor := choices.noColor }
  whole.recover fun fault => do
    Run.complain ("Error: " ++ fault.message)
    return 2

/-- Does what is asked for. -/
def perform (host : Host) : Request → Run Nat
  | .version => do
    Run.printLine version
    return 0
  | .help topic true => do
    Run.print (helpText topic)
    return 0
  | .help topic false => do
    Run.emit (.complained (helpText topic))
    return 1
  | .refused complaint => do
    Run.complain complaint
    return 1
  | .check paths choices =>
    withContext host .check choices fun logger options => host.runCheck paths options logger
  | .inspect file choices =>
    withContext host .inspect choices fun logger options => host.runInspect file options logger

/-- Does what a list of arguments asks for. -/
def run (host : Host) (arguments : List String) : Run Nat :=
  perform host (Request.ofArguments arguments)

end LinkScript.CommandLine
