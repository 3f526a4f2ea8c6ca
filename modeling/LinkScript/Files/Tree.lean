import LinkScript.Fault
import LinkScript.Text

/-!
# The file tree

A place in the file tree is the list of names that leads to it from the root.  `Path.resolve`
finds the place that a written path means from a working directory: it takes empty names, `.`
and `..` away by the text alone, whatever is there in the tree.

A file tree is a value: files with their contents, and directories with named children.  There
are two ways to a place in it.

* `Tree.locate` follows a list of plain names from the root.
* `Tree.follow` follows a path as it is written, one name at a time.  Empty names and `.` stay,
  `..` goes up, and each of the three needs a directory to start from.

Both tell a place that does not exist from one that lies below a file.
-/

namespace LinkScript

/-! ## Paths -/

/-- The names that lead from the root of the file tree to a place. -/
abbrev Path := List String

namespace Path

/-- The names between the slashes of a written path. -/
def names (written : String) : List String :=
  (Text.splitAt '/' written.toList).map String.ofList

/-- Whether a written path begins at the root. -/
def isAbsolute (written : String) : Bool := written.toList.head? == some '/'

/-- One name further along: nothing for an empty name or `.`, one place up for `..`. -/
def step (place : Path) (name : String) : Path :=
  if name = "" ∨ name = "." then place
  else if name = ".." then place.dropLast
  else place ++ [name]

/-- The place that a written path means from a working directory. -/
def resolve (cwd : Path) (written : String) : Path :=
  (names written).foldl step (if isAbsolute written then [] else cwd)

/-- The path of a place, written from the root. -/
def render (place : Path) : String := "/" ++ "/".intercalate place

end Path

/-! ## Trees -/

/-- A file or a directory. -/
inductive Tree where
  | file (contents : Bytes)
  | directory (children : List (String × Tree))
  deriving Inhabited, Repr

/-- Why there is nothing at a place. -/
inductive Absent where
  /-- A name on the way does not exist. -/
  | missing
  /-- A name on the way is a file. -/
  | belowFile
  deriving Repr, DecidableEq

/-- The complaint about a place with nothing there. -/
def Absent.fault (absent : Absent) (call : FileCall) (path : String) : FileFault :=
  match absent with
  | missing => .missing call path
  | belowFile => .notDirectory call path

namespace Tree

/-- A tree with nothing in it. -/
def empty : Tree := .directory []

/-! ## Finding -/

/-- What is at the end of a list of names. -/
def locate : Tree → Path → Except Absent Tree
  | tree, [] => .ok tree
  | .file _, _ :: _ => .error .belowFile
  | .directory children, name :: rest =>
    match children.lookup name with
    | some child => child.locate rest
    | none => .error .missing

/-- What is at the end of a written path, whose names are given, from a place on. -/
def follow (root : Tree) (here : Path) : List String → Except Absent Tree
  | [] => root.locate here
  | name :: rest =>
    match root.locate here with
    | .error absent => .error absent
    | .ok (.file _) => .error .belowFile
    | .ok (.directory _) => root.follow (Path.step here name) rest

/-- The contents of what a written path leads to from a working directory. -/
def read (root : Tree) (cwd : Path) (written : String) : Except FileFault Bytes :=
  let found :=
    if written = "" then .error .missing
    else root.follow (if Path.isAbsolute written then [] else cwd) (Path.names written)
  match found with
  | .ok (.file contents) => .ok contents
  | .ok (.directory _) => .error .isDirectory
  | .error absent => .error (absent.fault .opening written)

/-- What has a given name in the nearest directory at or above a place.  The place is given from
its last name to its first. -/
def nearest (root : Tree) (name : String) : List String → Option Tree
  | [] => (root.locate [name]).toOption
  | last :: above =>
    match root.locate ((last :: above).reverse ++ [name]) with
    | .ok found => some found
    | .error _ => root.nearest name above

/-! ## Building -/

/-- Gives a name a child made from the one it has. -/
def updateChild (name : String) (change : Option Tree → Tree) :
    List (String × Tree) → List (String × Tree)
  | [] => [(name, change none)]
  | (other, child) :: rest =>
    if other = name then (other, change (some child)) :: rest
    else (other, child) :: updateChild name change rest

/-- Changes what is at a place, with directories made on the way to it. -/
def update : Option Tree → Path → (Option Tree → Tree) → Tree
  | tree, [], change => change tree
  | some (.directory children), name :: rest, change =>
    .directory (updateChild name (fun child => update child rest change) children)
  | _, name :: rest, change => .directory [(name, update none rest change)]

/-- The tree with a file put at a place. -/
def addFile (root : Tree) (place : Path) (contents : Bytes) : Tree :=
  update (some root) place fun _ => .file contents

/-- The tree with a directory at a place. -/
def addDirectory (root : Tree) (place : Path) : Tree :=
  update (some root) place fun
    | some (.directory children) => .directory children
    | _ => empty

end Tree

end LinkScript
