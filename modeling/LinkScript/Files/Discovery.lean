import LinkScript.Files.Tree
import LinkScript.Text

/-!
# Finding the scripts to check

The candidates among files and directories that somebody names.  A named file is one, whatever
it is called.  Below a named directory the candidates are the files whose names end in `.so`;
names that begin with a dot are passed over, and so is everything below a directory called
`node_modules`.

The list comes out sorted and without repetitions, so it does not depend on the order in which
the paths are named.
-/

namespace LinkScript

namespace Discovery

/-- Whether a name begins with a dot. -/
def isHidden (name : String) : Bool := name.toList.head? == some '.'

/-- Whether a file with this name is a candidate below a named directory. -/
def isStubName (name : String) : Bool :=
  !isHidden name && ['.', 's', 'o'].isSuffixOf name.toList

/-- Whether the search enters a directory with this name. -/
def isEntered (name : String) : Bool := !isHidden name && name != "node_modules"

mutual

/-- The candidates that a child of the directory at a place brings. -/
def found (place : Path) (name : String) : Tree → List Path
  | .file _ => if isStubName name then [place ++ [name]] else []
  | .directory children =>
    if isEntered name then foundAmong (place ++ [name]) children else []

/-- The candidates that the children of the directory at a place bring. -/
def foundAmong (place : Path) : List (String × Tree) → List Path
  | [] => []
  | (name, child) :: rest => found place name child ++ foundAmong place rest

end

/-- The candidates that a named place brings. -/
def candidatesAt (place : Path) : Tree → List Path
  | .file _ => [place]
  | .directory children => foundAmong place children

end Discovery

/-- The scripts to check, and the paths that lead nowhere. -/
structure Candidates where
  files : List String
  missing : List String
  deriving Repr, DecidableEq

namespace Candidates

/-- What a written path brings from a working directory, or that it leads nowhere. -/
def ofPath (root : Tree) (cwd : Path) (written : String) : Except FileFault Candidates :=
  let place := Path.resolve cwd written
  match root.locate place with
  | .ok tree => .ok ⟨(Discovery.candidatesAt place tree).map Path.render, []⟩
  | .error .missing => .ok ⟨[], [written]⟩
  | .error .belowFile => .error (.notDirectory .stat place.render)

/-- What written paths bring one after another. -/
def gather (root : Tree) (cwd : Path) : List String → Except FileFault Candidates
  | [] => .ok ⟨[], []⟩
  | written :: rest => do
    let first ← ofPath root cwd written
    let others ← gather root cwd rest
    return ⟨first.files ++ others.files, first.missing ++ others.missing⟩

end Candidates

/-- The candidates among the places that written paths mean, sorted and each once.  A path that
leads below a file stops the search. -/
def findScriptFiles (root : Tree) (cwd : Path) (written : List String) :
    Except FileFault Candidates := do
  let all ← Candidates.gather root cwd written
  return { all with files := Text.sort all.files.eraseDups }

end LinkScript
