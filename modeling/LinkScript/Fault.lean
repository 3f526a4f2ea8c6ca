import LinkScript.Script.Navigation

/-!
# What can stop the program

Everything that ends a run early, with the wording of its message.  A malformed script is only
one of these: files that cannot be read, settings that make no sense, and an observer that
refuses what it is handed stop a run as well.
-/

namespace LinkScript

/-- What was being done to a file. -/
inductive FileCall where
  | opening
  | stat
  deriving Repr, DecidableEq

/-- The name of the system call. -/
def FileCall.name : FileCall → String
  | opening => "open"
  | stat => "stat"

/-- Why a file cannot be had. -/
inductive FileFault where
  /-- Nothing has that path. -/
  | missing (call : FileCall) (path : String)
  /-- The path goes through something that is not a directory. -/
  | notDirectory (call : FileCall) (path : String)
  /-- The path is a directory, which has no contents to read. -/
  | isDirectory
  deriving Repr, DecidableEq

namespace FileFault

/-- The name of the system error. -/
def code : FileFault → String
  | missing _ _ => "ENOENT"
  | notDirectory _ _ => "ENOTDIR"
  | isDirectory => "EISDIR"

/-- The complaint in words. -/
def message : FileFault → String
  | missing call path => "ENOENT: no such file or directory, " ++ call.name ++ " '" ++ path ++ "'"
  | notDirectory call path => "ENOTDIR: not a directory, " ++ call.name ++ " '" ++ path ++ "'"
  | isDirectory => "EISDIR: illegal operation on a directory, read"

end FileFault

/-- A setting that makes no sense. -/
inductive SettingFault where
  | invalidLogLevel (value : String)
  | invalidFormat (value : String)
  | unknownFormat (value : String)
  deriving Repr, DecidableEq

/-- The complaint in words. -/
def SettingFault.message : SettingFault → String
  | invalidLogLevel value => "Invalid LDSCRIPT_LOG_LEVEL: " ++ value
  | invalidFormat value => "Invalid LDSCRIPT_FORMAT: " ++ value ++ " (expected pretty or json)"
  | unknownFormat value => "Unknown format: " ++ value ++ " (expected pretty or json)"

/-- Why a run ends early. -/
inductive Fault where
  | parse (fault : ParseFault)
  | file (fault : FileFault)
  | setting (fault : SettingFault)
  /-- An observer did not take what it was handed, for a reason of its own. -/
  | refused (reason : String)
  deriving Repr, DecidableEq

/-- The complaint in words. -/
def Fault.message : Fault → String
  | parse (.link failure) => failure.message
  | parse (.outOfBounds fault) => fault.message
  | file fault => fault.message
  | setting fault => fault.message
  | refused reason => reason

end LinkScript
