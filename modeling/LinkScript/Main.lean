import LinkScript.CommandLine
import LinkScript.Log
import Std.Time.DateTime.Timestamp

/-!
# The executable

The outer layer: it takes a picture of the part of the file tree that the arguments are about,
runs the program on it, and writes what the run lets be seen.
-/

namespace LinkScript

/-- Adds what is below the directory at a place, as far as a search enters it. -/
partial def loadBelow (root : Tree) (place : Path) : IO Tree := do
  let mut root := root.addDirectory place
  for entry in ← ((← IO.currentDir) / place.render).readDir do
    let inner := place ++ [entry.fileName]
    if (← entry.path.symlinkMetadata).type == .dir then
      if Discovery.isEntered entry.fileName then
        root ← loadBelow root inner
    else if Discovery.isStubName entry.fileName then
      root := root.addFile inner (← IO.FS.readBinFile entry.path).toList
  return root

/-- Adds the places on the way to a place, up to the first that is no directory.  The last one is
added with what is below it if `whole` is set. -/
def loadPath (root : Tree) (place : Path) (whole : Bool) : IO Tree := do
  let mut root := root
  for count in List.range (place.length + 1) do
    let here := place.take count
    let path := (← IO.currentDir) / Path.render here
    if ← path.isDir then
      if whole && count == place.length then
        root ← loadBelow root here
      else
        root := root.addDirectory here
    else if ← path.pathExists then
      return root.addFile here (← IO.FS.readBinFile path).toList
    else
      return root
  return root

/-- The places that a request is about, each with whether what is below it matters. -/
def Host.places (cwd : Path) : CommandLine.Request → List (Path × Bool)
  | .check paths _ => paths.map fun path => (Path.resolve cwd path, true)
  | .inspect file _ => [(Path.resolve cwd file, false)]
  | _ => []

/-- The host of this process, as far as a request is about it. -/
def loadHost (request : CommandLine.Request) : IO Host := do
  let cwd := Path.resolve [] (← IO.currentDir).toString
  let mut root := Tree.empty
  for count in List.range (cwd.length + 1) do
    root ← loadPath root (cwd.take count ++ [".env"]) false
  for (place, whole) in Host.places cwd request do
    root ← loadPath root place whole
  let now ← Std.Time.Timestamp.now
  return {
    root, cwd
    env := ⟨← IO.getEnv "LDSCRIPT_LOG_LEVEL", ← IO.getEnv "LDSCRIPT_FORMAT"⟩
    colorLevel := if ← (← IO.getStdout).isTty then 1 else 0
    timestamp := Log.Timestamp.render now.toMillisecondsSinceUnixEpoch.toInt.toNat }

/-- Writes what a run lets be seen. -/
def showEvent : Event → IO Unit
  | .printed text => IO.print text
  | .complained text => IO.eprint text
  | .logged line => IO.eprintln line
  | .reported _ => return ()

end LinkScript

open LinkScript in
/-- Does what the arguments ask for. -/
def main (arguments : List String) : IO UInt32 := do
  let request := CommandLine.Request.ofArguments arguments
  let run := CommandLine.perform (← loadHost request) request
  run.events.forM showEvent
  match run.outcome with
  | .ok code => return code.toUInt32
  | .error fault =>
    IO.eprintln fault.message
    return 2
