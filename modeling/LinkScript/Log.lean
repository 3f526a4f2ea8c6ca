import LinkScript.Decimal.Double
import LinkScript.Json
import LinkScript.Run

/-!
# The log

A logger writes each event as one line of JSON with a level, a name, metadata and the time.  What
is below its lowest level is dropped.  A child logger is its parent with more metadata; what is
merged in later wins.

Metadata may hold errors.  One that is the value of a field is written with its name, its message
and, outside production, the trace of calls it carries.  None of these is written of an error
further inside: it is an empty object, or an object of the members that it was given besides.
A field named `__proto__` is never written.

A family of loggers grows from one root: any member can be given a child, and any member can log.
The members are numbered in the order in which they come, the root being number zero.
-/

namespace LinkScript

/-! ## Levels and environments -/

/-- How grave an event is. -/
inductive LogLevel where
  | debug
  | info
  | warn
  | error
  | fatal
  deriving Repr, DecidableEq

namespace LogLevel

/-- The rank of a level, zero for the least grave. -/
def priority : LogLevel → Nat
  | debug => 0
  | info => 1
  | warn => 2
  | error => 3
  | fatal => 4

/-- The name of a level. -/
def name : LogLevel → String
  | debug => "debug"
  | info => "info"
  | warn => "warn"
  | error => "error"
  | fatal => "fatal"

/-- Every level. -/
def all : List LogLevel := [debug, info, warn, error, fatal]

/-- The level with a given name. -/
def ofName? (text : String) : Option LogLevel := all.find? (·.name == text)

end LogLevel

/-- Where the program runs. -/
inductive Environment where
  | test
  | development
  | production
  deriving Repr, DecidableEq

namespace Environment

/-- The lowest level that is written when nothing else is asked for. -/
def minLevel : Environment → LogLevel
  | test => .debug
  | development => .info
  | production => .warn

/-- Whether errors are written with their trace of calls. -/
def includesStacks : Environment → Bool
  | production => false
  | _ => true

/-- The name of an environment. -/
def name : Environment → String
  | test => "test"
  | development => "development"
  | production => "production"

/-- The environment with a given name. -/
def ofName? (text : String) : Option Environment :=
  [test, development, production].find? (·.name == text)

end Environment

/-! ## Metadata -/

namespace Log

/-- A value in the metadata of an event: JSON with errors among it.  An error has a name, a message
and perhaps a trace of calls, and nothing else unless members of its own were given to it. -/
inductive Value where
  | null
  | bool (value : Bool)
  | num (value : Decimal)
  | str (text : String)
  | arr (items : List Value)
  | obj (members : List (String × Value))
  | error (name message : String) (stack : Option String) (own : List (String × Value))
  deriving Inhabited, Repr

namespace Value

/-- A natural number as metadata. -/
def nat (n : Nat) : Value := num (Decimal.ofNat n)

/-- A number as metadata.  The log keeps double precision, and has no word for what is too great
for it. -/
def number (d : Decimal) : Value :=
  match d.toDouble with
  | some rounded => num rounded
  | none => null

mutual

/-- A value as it is written inside another one. -/
def toJson : Value → Json
  | .null => .null
  | .bool value => .bool value
  | .num value => .num value
  | .str text => .str text
  | .arr items => .arr (itemsToJson items)
  | .obj members => .obj (membersToJson members)
  | .error _ _ _ own => .obj (membersToJson own)

/-- Values as they are written inside an array. -/
def itemsToJson : List Value → List Json
  | [] => []
  | first :: rest => first.toJson :: itemsToJson rest

/-- Members as they are written inside an object. -/
def membersToJson : List (String × Value) → List (String × Json)
  | [] => []
  | (name, value) :: rest => (name, value.toJson) :: membersToJson rest

end

/-- A value as it is written as a field of the metadata. -/
def fieldToJson (includeStack : Bool) : Value → Json
  | .error name message stack _ =>
    .obj ([("name", .str name), ("message", .str message)] ++
      match stack with
      | some trace => if includeStack then [("stack", .str trace)] else []
      | none => [])
  | value => value.toJson

end Value

/-- Metadata as it is written. -/
def metadataToJson (includeStacks : Bool) (metadata : Fields Value) : Json :=
  .obj ((metadata.erase "__proto__").mapValues (Value.fieldToJson includeStacks))

end Log

/-! ## Loggers -/

/-- A logger: the environment it is for, the lowest level it writes, the metadata of all its
events, the time it writes, and whether what takes the lines takes a given one. -/
structure Logger where
  environment : Environment
  minLevel : LogLevel
  metadata : Fields Log.Value
  timestamp : String
  accept : String → Except String Unit

namespace Logger

/-- A logger with no metadata.  Without an environment it is for development, and without a level
it has the one of its environment. -/
def create (timestamp : String) (environment : Option Environment) (minLevel : Option LogLevel)
    (accept : String → Except String Unit) : Logger :=
  let environment := environment.getD .development
  { environment
    minLevel := minLevel.getD environment.minLevel
    metadata := []
    timestamp
    accept }

/-- A logger whose events carry more metadata. -/
def child (logger : Logger) (metadata : Fields Log.Value) : Logger :=
  { logger with metadata := logger.metadata.merge metadata }

/-- The record of an event. -/
def record (logger : Logger) (level : LogLevel) (event : String) (metadata : Fields Log.Value) :
    Json :=
  .obj [("level", .str level.name), ("event_type", .str event),
    ("metadata",
      Log.metadataToJson logger.environment.includesStacks (logger.metadata.merge metadata)),
    ("timestamp", .str logger.timestamp)]

/-- The line that an event gives, if it is grave enough. -/
def line? (logger : Logger) (level : LogLevel) (event : String) (metadata : Fields Log.Value) :
    Option String :=
  if level.priority < logger.minLevel.priority then none
  else some (logger.record level event metadata).compress

/-- Writes an event. -/
def log (logger : Logger) (level : LogLevel) (event : String) (metadata : Fields Log.Value) :
    Run Unit :=
  match logger.line? level event metadata with
  | none => pure ()
  | some line =>
    match logger.accept line with
    | .ok () => Run.emit (.logged line)
    | .error reason => Run.fail (.refused reason)

end Logger

end LinkScript

/-! ## Loggers and their children -/

namespace LinkScript.Log

/-- What can be asked of a family of loggers. -/
inductive Request where
  | child (of : Nat) (metadata : Fields Value)
  | log (on : Nat) (level : LogLevel) (event : String) (metadata : Fields Value)

/-- What comes of a request: the number of a new member, or the events of a run. -/
inductive Reply where
  | member (number : Nat)
  | ran (run : Run Unit)
  | nobody

/-- One request to a family. -/
def respond (family : Array Logger) : Request → Reply × Array Logger
  | .child of metadata =>
    match family[of]? with
    | some logger => (.member family.size, family.push (logger.child metadata))
    | none => (.nobody, family)
  | .log on level event metadata =>
    match family[on]? with
    | some logger => (.ran (logger.log level event metadata), family)
    | none => (.nobody, family)

/-- The replies to one request after another. -/
def respondAll (family : Array Logger) : List Request → List Reply
  | [] => []
  | first :: rest =>
    let (reply, family) := respond family first
    reply :: respondAll family rest

end LinkScript.Log

/-! ## The time in a log line

A time is counted in milliseconds from the beginning of 1970 and written as a date and a time of
day in UTC.  The date comes from counting days in the cycle of four hundred years, with March as
the first month, so that the day that comes and goes is the last of its year. -/

namespace LinkScript.Log.Timestamp

/-- A day of the calendar. -/
structure Date where
  year : Nat
  month : Nat
  day : Nat
  deriving Repr, DecidableEq

/-- The date that lies a number of days behind the first of January 1970. -/
def dateOfDay (days : Nat) : Date :=
  let sinceMarch := days + 719468
  let dayOfCycle := sinceMarch % 146097
  let yearOfCycle :=
    (dayOfCycle - dayOfCycle / 1460 + dayOfCycle / 36524 - dayOfCycle / 146096) / 365
  let dayOfYear := dayOfCycle - (365 * yearOfCycle + yearOfCycle / 4 - yearOfCycle / 100)
  let monthFromMarch := (5 * dayOfYear + 2) / 153
  let year := yearOfCycle + 400 * (sinceMarch / 146097)
  { year := if monthFromMarch < 10 then year else year + 1
    month := if monthFromMarch < 10 then monthFromMarch + 3 else monthFromMarch - 9
    day := dayOfYear - (153 * monthFromMarch + 2) / 5 + 1 }

/-- A number with zeros in front up to a width. -/
def padded (width n : Nat) : String :=
  let digits := Nat.toDigits 10 n
  String.ofList (List.replicate (width - digits.length) '0' ++ digits)

/-- A time as it is written. -/
def render (milliseconds : Nat) : String :=
  let seconds := milliseconds / 1000
  let date := dateOfDay (seconds / 86400)
  padded 4 date.year ++ "-" ++ padded 2 date.month ++ "-" ++ padded 2 date.day
    ++ "T" ++ padded 2 (seconds / 3600 % 24) ++ ":" ++ padded 2 (seconds / 60 % 60)
    ++ ":" ++ padded 2 (seconds % 60) ++ "." ++ padded 3 (milliseconds % 1000) ++ "Z"

end LinkScript.Log.Timestamp
