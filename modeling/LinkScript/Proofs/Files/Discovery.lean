import LinkScript.Files.Discovery
import LinkScript.Proofs.Files.Tree
import LinkScript.Proofs.Text
import Mathlib.Data.List.Basic

/-!
# What is found

The search for candidates walks over the children of directories; what it is for is said by places.
This module brings the two together.

* `Discovery.Brings`: the places that a written path brings, by what is there and by the names on
  the way.  `Discovery.mem_brought` says that the walk collects exactly these.
* `Candidates.gather_eq_ok` and `Candidates.gather_eq_error`: the candidates of several paths are
  those of each, unless a path leads below a file.
* `findScriptFiles_exact`: the list that comes out is increasing and holds what the paths bring.
  As nothing but its members determine an increasing list, it does not depend on the order of the
  paths, and its own paths bring it again.
-/

namespace LinkScript

namespace Discovery

/-! ## The walk below a directory -/

/-- The name of a candidate ends in `.so` and is not hidden. -/
theorem isStubName_iff {name : String} :
    isStubName name = true ↔ name.toList.head? ≠ some '.' ∧ ".so".toList <:+ name.toList := by
  simp [isStubName, isHidden]

/-- A directory is entered if it is not hidden and not `node_modules`. -/
theorem isEntered_iff {name : String} :
    isEntered name = true ↔ name.toList.head? ≠ some '.' ∧ name ≠ "node_modules" := by
  simp [isEntered, isHidden]

/-- The names that lead from a directory to a candidate below it: those of directories that are
entered, and last that of a stub. -/
inductive IsWay : Path → Prop
  | stub {name : String} (is : isStubName name = true) : IsWay [name]
  | enter {name : String} {rest : Path} (entered : isEntered name = true) (way : IsWay rest) :
      IsWay (name :: rest)

/-- A way of one name is the name of a candidate. -/
theorem isWay_singleton {name : String} : IsWay [name] ↔ isStubName name = true := by
  constructor
  · rintro (is | ⟨_, ⟨⟩⟩)
    exact is
  · exact .stub

/-- A longer way goes through a directory that is entered. -/
theorem isWay_cons {name : String} {rest : Path} (some : rest ≠ []) :
    IsWay (name :: rest) ↔ isEntered name = true ∧ IsWay rest := by
  constructor
  · rintro (_ | ⟨entered, way⟩)
    · exact absurd rfl some
    · exact ⟨entered, way⟩
  · exact fun ⟨entered, way⟩ => .enter entered way

/-- A way by its last name and those before. -/
theorem isWay_iff {way : Path} :
    IsWay way ↔ ∃ between name, way = between ++ [name] ∧
      (∀ directory ∈ between, isEntered directory = true) ∧ isStubName name = true := by
  constructor
  · intro is
    induction is with
    | stub is => exact ⟨[], _, rfl, by simp, is⟩
    | @enter directory _ entered _ ih =>
      obtain ⟨between, name, rfl, all, stub⟩ := ih
      exact ⟨directory :: between, name, rfl, List.forall_mem_cons.mpr ⟨entered, all⟩, stub⟩
  · rintro ⟨between, name, rfl, all, stub⟩
    induction between with
    | nil => exact .stub stub
    | cons directory between ih =>
      obtain ⟨entered, all⟩ := List.forall_mem_cons.mp all
      exact .enter entered (ih all)

/-- What is found among children is found in one of them. -/
theorem mem_foundAmong_iff {place target : Path} {children : List (String × Tree)} :
    target ∈ foundAmong place children ↔
      ∃ child ∈ children, target ∈ found place child.1 child.2 := by
  induction children with
  | nil => simp [foundAmong]
  | cons first rest ih => rw [foundAmong, List.mem_append, ih, List.exists_mem_cons_iff]

/-- What the children of a directory bring is at the end of a way below it, if what each of them
brings is at the end of a way through that child. -/
theorem mem_foundAmong_of_children {children : List (String × Tree)}
    (wellFormed : (Tree.directory children).WellFormed) {place target : Path}
    (each : ∀ child ∈ children, target ∈ found place child.1 child.2 ↔
      ∃ rest, target = place ++ child.1 :: rest ∧ IsWay (child.1 :: rest) ∧
        child.2.HasFile rest) :
    target ∈ foundAmong place children ↔
      ∃ way, target = place ++ way ∧ IsWay way ∧ (Tree.directory children).HasFile way := by
  rw [mem_foundAmong_iff]
  constructor
  · rintro ⟨child, mem, inside⟩
    obtain ⟨rest, at_, way, file⟩ := (each child mem).mp inside
    exact ⟨child.1 :: rest, at_, way,
      wellFormed.hasFile_directory.mpr ⟨child, mem, rest, rfl, file⟩⟩
  · rintro ⟨way, at_, is, below⟩
    obtain ⟨child, mem, rest, rfl, file⟩ := wellFormed.hasFile_directory.mp below
    exact ⟨child, mem, (each child mem).mpr ⟨rest, at_, is, file⟩⟩

/-- **What a child brings is at the end of a way through it.** -/
theorem mem_found {tree : Tree} (wellFormed : tree.WellFormed) {place target : Path}
    {name : String} :
    target ∈ found place name tree ↔
      ∃ rest, target = place ++ name :: rest ∧ IsWay (name :: rest) ∧ tree.HasFile rest := by
  induction tree using Tree.induction generalizing place name with
  | file contents =>
    rw [found]
    by_cases stub : isStubName name = true <;> simp [Tree.hasFile_file, isWay_singleton, stub]
  | directory children ih =>
    have among : target ∈ foundAmong (place ++ [name]) children ↔ ∃ way,
        target = place ++ [name] ++ way ∧ IsWay way ∧ (Tree.directory children).HasFile way := by
      apply mem_foundAmong_of_children wellFormed
      intro child mem
      exact ih child mem (wellFormed.of_mem mem)
    -- A way through a directory has further names behind its own, and enters it.
    have through (rest : Path) (file : (Tree.directory children).HasFile rest) :
        IsWay (name :: rest) ↔ isEntered name = true ∧ IsWay rest := by
      apply isWay_cons
      rintro rfl
      exact Tree.not_hasFile_directory_nil children file
    rw [found]
    by_cases entered : isEntered name = true
    · rw [if_pos entered, among]
      simp only [List.append_assoc, List.singleton_append]
      constructor
      · rintro ⟨rest, at_, way, file⟩
        exact ⟨rest, at_, (through rest file).mpr ⟨entered, way⟩, file⟩
      · rintro ⟨rest, at_, way, file⟩
        exact ⟨rest, at_, ((through rest file).mp way).2, file⟩
    · rw [if_neg entered]
      refine ⟨fun nothing => absurd nothing List.not_mem_nil, ?_⟩
      rintro ⟨rest, -, way, file⟩
      exact absurd ((through rest file).mp way).1 entered

/-- **What the children of a directory bring is at the end of a way below it.** -/
theorem mem_foundAmong {children : List (String × Tree)}
    (wellFormed : (Tree.directory children).WellFormed) {place target : Path} :
    target ∈ foundAmong place children ↔
      ∃ way, target = place ++ way ∧ IsWay way ∧ (Tree.directory children).HasFile way :=
  mem_foundAmong_of_children wellFormed fun _ mem => mem_found (wellFormed.of_mem mem)

/-! ## What a path brings -/

/-- The places of the files that a written path brings: the place it means, and those below that
place whose names are of stubs and on the way to which every directory is entered. -/
inductive Brings (root : Tree) (cwd : Path) (written : String) : Path → Prop
  | named (file : root.HasFile (Path.resolve cwd written)) :
      Brings root cwd written (Path.resolve cwd written)
  | below {between : Path} {name : String}
      (file : root.HasFile (Path.resolve cwd written ++ (between ++ [name])))
      (entered : ∀ directory ∈ between,
        directory.toList.head? ≠ some '.' ∧ directory ≠ "node_modules")
      (stub : name.toList.head? ≠ some '.' ∧ ".so".toList <:+ name.toList) :
      Brings root cwd written (Path.resolve cwd written ++ (between ++ [name]))

section

variable {root : Tree} {cwd : Path} {written : String}

/-- A written path brings the file that it means, or the files that lie on a way below it. -/
theorem brings_iff {target : Path} :
    Brings root cwd written target ↔ ∃ way, target = Path.resolve cwd written ++ way ∧
      root.HasFile (Path.resolve cwd written ++ way) ∧ (way = [] ∨ IsWay way) := by
  simp only [isWay_iff, isEntered_iff, isStubName_iff]
  constructor
  · rintro (file | @⟨between, name, file, entered, stub⟩)
    · exact ⟨[], by simp, by simpa using file, Or.inl rfl⟩
    · exact ⟨_, rfl, file, Or.inr ⟨between, name, rfl, entered, stub⟩⟩
  · rintro ⟨way, rfl, file, rfl | ⟨between, name, rfl, entered, stub⟩⟩
    · rw [List.append_nil] at *
      exact .named file
    · exact .below file entered stub

/-- There is a file at every place that a path brings. -/
theorem Brings.hasFile {target : Path} (brings : Brings root cwd written target) :
    root.HasFile target := by
  obtain ⟨way, rfl, file, -⟩ := brings_iff.mp brings
  exact file

/-- The candidates at a place are the files at the end of no names, or of a way. -/
theorem mem_candidatesAt {tree : Tree} (wellFormed : tree.WellFormed) {place target : Path} :
    target ∈ candidatesAt place tree ↔
      ∃ way, target = place ++ way ∧ tree.HasFile way ∧ (way = [] ∨ IsWay way) := by
  rcases tree with contents | children
  · simp [candidatesAt, Tree.hasFile_file]
  · rw [candidatesAt, mem_foundAmong wellFormed]
    constructor
    · rintro ⟨way, at_, is, file⟩
      exact ⟨way, at_, file, Or.inr is⟩
    · rintro ⟨way, at_, file, rfl | is⟩
      · exact absurd file (Tree.not_hasFile_directory_nil children)
      · exact ⟨way, at_, is, file⟩

/-- The paths of the files that the search collects for a written path. -/
def brought (root : Tree) (cwd : Path) (written : String) : List String :=
  match root.stat cwd written with
  | .ok tree => (candidatesAt (Path.resolve cwd written) tree).map Path.render
  | .error _ => []

/-- **The search collects what the path brings.** -/
theorem mem_brought (wellFormed : root.WellFormed) {file : String} :
    file ∈ brought root cwd written ↔
      ∃ place, Brings root cwd written place ∧ file = place.render := by
  simp only [brings_iff, Tree.hasFile_append]
  rw [brought]
  split
  · next tree there =>
    rw [Tree.stat_eq_ok_iff] at there
    simp only [there, List.mem_map, mem_candidatesAt (wellFormed.of_locate there).1]
    constructor
    · rintro ⟨place, ⟨way, at_, below, is⟩, rfl⟩
      exact ⟨place, ⟨way, at_, ⟨tree, rfl, below⟩, is⟩, rfl⟩
    · rintro ⟨place, ⟨way, at_, ⟨_, ⟨⟩, below⟩, is⟩, rfl⟩
      exact ⟨place, ⟨way, at_, below, is⟩, rfl⟩
  · next fault nothing =>
    refine ⟨fun none => absurd none List.not_mem_nil, ?_⟩
    rintro ⟨place, ⟨way, -, ⟨tree, there, -⟩, -⟩, -⟩
    rw [← Tree.stat_eq_ok_iff, nothing] at there
    cases there

end

end Discovery

/-! ## Several paths -/

section

variable {root : Tree} {cwd : Path}

namespace Candidates

/-- What a path brings goes by what is said about it: a failure other than that there is nothing
stops the search. -/
theorem ofPath_eq (root : Tree) (cwd : Path) (written : String) :
    ofPath root cwd written =
      match root.stat cwd written with
      | .ok tree =>
        .ok ⟨(Discovery.candidatesAt (Path.resolve cwd written) tree).map Path.render, []⟩
      | .error fault =>
        if fault.code = "ENOENT" then .ok ⟨[], [written]⟩ else .error fault := by
  rw [ofPath, Tree.stat]
  rcases root.locate (Path.resolve cwd written) with (_ | _) | tree <;> rfl

/-- A path that fails in no other way brings what the search collects. -/
theorem ofPath_eq_ok {written : String}
    (absent : ∀ fault, root.stat cwd written = .error fault → fault.code = "ENOENT") :
    ofPath root cwd written = .ok ⟨Discovery.brought root cwd written,
      [written].filter fun written => !(root.stat cwd written).isOk⟩ := by
  rw [ofPath_eq, Discovery.brought, List.filter_singleton]
  rcases there : root.stat cwd written with fault | tree
  · exact if_pos (absent fault there)
  · rfl

/-- A path that fails in another way than that there is nothing is a fault of the search. -/
theorem ofPath_eq_error {written : String} {fault : FileFault}
    (failed : root.stat cwd written = .error fault) (other : fault.code ≠ "ENOENT") :
    ofPath root cwd written = .error fault := by
  rw [ofPath_eq, failed]
  exact if_neg other

/-- **Paths bring what each of them brings**, as long as nothing but a missing place fails. -/
theorem gather_eq_ok {paths : List String}
    (absent : ∀ written ∈ paths, ∀ fault, root.stat cwd written = .error fault →
      fault.code = "ENOENT") :
    gather root cwd paths = .ok ⟨paths.flatMap (Discovery.brought root cwd),
      paths.filter fun written => !(root.stat cwd written).isOk⟩ := by
  induction paths with
  | nil => rfl
  | cons written rest ih =>
    obtain ⟨first, others⟩ := List.forall_mem_cons.mp absent
    have missing (fails : String → Bool) :
        (written :: rest).filter fails = [written].filter fails ++ rest.filter fails :=
      List.filter_append [written] rest
    rw [gather, ofPath_eq_ok first, ih others, List.flatMap_cons, missing]
    rfl

/-- Any other failure of a path is one of the whole search. -/
theorem gather_eq_error {paths : List String} {written : String} (mem : written ∈ paths)
    {fault : FileFault} (failed : root.stat cwd written = .error fault)
    (other : fault.code ≠ "ENOENT") :
    ∃ stopped, gather root cwd paths = .error stopped := by
  induction paths with
  | nil => exact absurd mem List.not_mem_nil
  | cons first rest ih =>
    rw [gather]
    rcases brings : ofPath root cwd first with stopped | candidates
    · exact ⟨stopped, rfl⟩
    · rcases List.mem_cons.mp mem with rfl | behind
      · rw [ofPath_eq_error failed other] at brings
        cases brings
      · obtain ⟨stopped, more⟩ := ih behind
        rw [more]
        exact ⟨stopped, rfl⟩

end Candidates

/-- The paths of the files that written paths bring, sorted and each once. -/
def Discovery.listed (root : Tree) (cwd : Path) (paths : List String) : List String :=
  Text.sort (paths.flatMap (brought root cwd)).eraseDups

/-- What comes out when nothing but a missing place fails. -/
theorem findScriptFiles_eq_ok {paths : List String}
    (absent : ∀ written ∈ paths, ∀ fault, root.stat cwd written = .error fault →
      fault.code = "ENOENT") :
    findScriptFiles root cwd paths = .ok ⟨Discovery.listed root cwd paths,
      paths.filter fun written => !(root.stat cwd written).isOk⟩ := by
  rw [findScriptFiles, Candidates.gather_eq_ok absent]
  rfl

/-- **The search fails when a path fails**, other than by not being there. -/
theorem findScriptFiles_eq_error_iff {paths : List String} :
    (∃ stopped, findScriptFiles root cwd paths = .error stopped) ↔
      ∃ written ∈ paths, ∃ fault, root.stat cwd written = .error fault ∧
        fault.code ≠ "ENOENT" := by
  constructor
  · rintro ⟨stopped, failed⟩
    by_contra none
    push Not at none
    rw [findScriptFiles_eq_ok none] at failed
    cases failed
  · rintro ⟨written, mem, fault, failed, other⟩
    obtain ⟨stopped, gathered⟩ := Candidates.gather_eq_error mem failed other
    rw [findScriptFiles, gathered]
    exact ⟨stopped, rfl⟩

/-! ## The list that comes out -/

namespace Discovery

/-- The files come in strictly increasing order. -/
theorem increasing_listed (paths : List String) : Text.Increasing (listed root cwd paths) :=
  Text.increasing_sort_eraseDups _

/-- A file is listed exactly if one of the paths brings it. -/
theorem mem_listed {paths : List String} {file : String} :
    file ∈ listed root cwd paths ↔ ∃ written ∈ paths, file ∈ brought root cwd written :=
  Text.mem_sort_eraseDups.trans List.mem_flatMap

/-- The order of the paths and their repetitions do not matter. -/
theorem listed_congr {paths others : List String}
    (same : ∀ written, written ∈ others ↔ written ∈ paths) :
    listed root cwd others = listed root cwd paths := by
  apply (increasing_listed others).eq_of_mem_iff (increasing_listed paths)
  intro file
  simp only [mem_listed, same]

/-- What is found is at a path that means its place again. -/
theorem Brings.resolve_render {written : String} {place : Path} (wellFormed : root.WellFormed)
    (brings : Brings root cwd written place) : Path.resolve cwd place.render = place := by
  obtain ⟨contents, located⟩ := brings.hasFile
  exact Path.resolve_render (wellFormed.isPlain_of_locate located) cwd

/-- A path of a file brings that file alone. -/
theorem brings_of_hasFile {written : String} (file : root.HasFile (Path.resolve cwd written))
    {target : Path} : Brings root cwd written target ↔ target = Path.resolve cwd written := by
  constructor
  · intro brings
    obtain ⟨way, rfl, below, -⟩ := brings_iff.mp brings
    obtain ⟨tree, located, rest⟩ := Tree.hasFile_append.mp below
    obtain ⟨contents, here⟩ := file
    cases here.symm.trans located
    rw [Tree.hasFile_file.mp rest, List.append_nil]
  · rintro rfl
    exact .named file

/-- A path that was found is that of a file, and brings itself. -/
theorem brought_of_mem_listed (wellFormed : root.WellFormed) {paths : List String}
    {found : String} (mem : found ∈ listed root cwd paths) :
    (root.stat cwd found).isOk = true ∧
      ∀ file, file ∈ brought root cwd found ↔ file = found := by
  obtain ⟨written, -, inside⟩ := mem_listed.mp mem
  obtain ⟨place, brings, rfl⟩ := (mem_brought wellFormed).mp inside
  have means := brings.resolve_render wellFormed
  have there : root.HasFile (Path.resolve cwd place.render) := by
    rw [means]
    exact brings.hasFile
  constructor
  · obtain ⟨contents, located⟩ := there
    rw [Tree.stat_eq_ok_iff.mpr located]
    rfl
  · intro file
    simp only [mem_brought wellFormed, brings_of_hasFile there, exists_eq_left, means]

/-- The files of a list bring that list again. -/
theorem listed_listed (wellFormed : root.WellFormed) (paths : List String) :
    listed root cwd (listed root cwd paths) = listed root cwd paths := by
  apply (increasing_listed _).eq_of_mem_iff (increasing_listed paths)
  intro file
  rw [mem_listed]
  constructor
  · rintro ⟨found, mem, inside⟩
    rw [((brought_of_mem_listed wellFormed mem).2 file).mp inside]
    exact mem
  · intro mem
    exact ⟨file, mem, ((brought_of_mem_listed wellFormed mem).2 file).mpr rfl⟩

end Discovery

/-- **The search is exact and free of order.**  Where nothing but a missing place fails, the files
that come out increase by their units; they are those that the paths bring, and the paths that are
missing are listed as they were written.  The same files come out for every list of the same paths,
they are the files of each path taken together, and searching for them brings them again. -/
theorem findScriptFiles_exact (wellFormed : root.WellFormed) (cwd : Path) (paths : List String)
    (absent : ∀ written ∈ paths, ∀ fault, root.stat cwd written = .error fault →
      fault.code = "ENOENT") :
    ∃ files,
      findScriptFiles root cwd paths =
        .ok ⟨files, paths.filter fun written => !(root.stat cwd written).isOk⟩ ∧
      files.Pairwise (fun first second => Text.units first < Text.units second) ∧
      (∀ file, file ∈ files ↔
        ∃ written ∈ paths, ∃ place, Discovery.Brings root cwd written place ∧
          file = place.render) ∧
      (∀ others : List String, (∀ written, written ∈ others ↔ written ∈ paths) →
        findScriptFiles root cwd others =
          .ok ⟨files, others.filter fun written => !(root.stat cwd written).isOk⟩) ∧
      (∀ file, file ∈ files ↔
        ∃ written ∈ paths, ∃ single, findScriptFiles root cwd [written] = .ok single ∧
          file ∈ single.files) ∧
      findScriptFiles root cwd files = .ok ⟨files, []⟩ := by
  refine ⟨Discovery.listed root cwd paths, findScriptFiles_eq_ok absent,
    Discovery.increasing_listed paths, ?_, ?_, ?_, ?_⟩
  · intro file
    simp only [Discovery.mem_listed, Discovery.mem_brought wellFormed]
  · intro others same
    rw [findScriptFiles_eq_ok fun written mem => absent written ((same written).mp mem),
      Discovery.listed_congr same]
  · intro file
    rw [Discovery.mem_listed]
    apply exists_congr
    intro written
    apply and_congr_right
    intro mem
    have alone := findScriptFiles_eq_ok (List.forall_mem_singleton.mpr (absent written mem))
    simp [alone, Discovery.mem_listed]
  · have there : ∀ found ∈ Discovery.listed root cwd paths, (root.stat cwd found).isOk = true :=
      fun found mem => (Discovery.brought_of_mem_listed wellFormed mem).1
    have answered : ∀ found ∈ Discovery.listed root cwd paths, ∀ fault,
        root.stat cwd found = .error fault → fault.code = "ENOENT" := by
      intro found mem fault failed
      have ok := there found mem
      rw [failed] at ok
      cases ok
    have none : (Discovery.listed root cwd paths).filter
        (fun found => !(root.stat cwd found).isOk) = [] := by
      rw [List.filter_eq_nil_iff]
      intro found mem
      simp [there found mem]
    rw [findScriptFiles_eq_ok answered, Discovery.listed_listed wellFormed, none]

end

/-- Stubs in a directory, with others that are passed over, and one past U+FFFF. -/
def stubTree : Tree :=
  [["w", "lib", "~.so"], ["w", "lib", "a.so", "b.so"], ["w", "lib", "😀.so"],
    ["w", "lib", "\uFF5E.so"], ["w", "lib", ".c.so"], ["w", "lib", ".d", "e.so"],
    ["w", "lib", "node_modules", "f.so"], ["w", "lib", "notes"]].foldl
    (fun root place => root.addFile place []) Tree.empty

/-- Paths into that directory, with repetitions and two files named that are passed over in it. -/
def stubPaths : List String :=
  ["lib", "gone", "lib/node_modules/f.so", "./lib/a.so/", "lib", "../w/lib/notes", "gone"]

/-- What they bring. -/
def stubFiles : List String :=
  ["/w/lib/a.so/b.so", "/w/lib/node_modules/f.so", "/w/lib/notes", "/w/lib/~.so",
    "/w/lib/😀.so", "/w/lib/\uFF5E.so"]

/-- Paths that overlap are searched in any order, and what they bring brings itself. -/
theorem findScriptFiles_exact_overlapping :
    stubTree.WellFormed ∧
    (∀ written ∈ stubPaths, ∀ fault, stubTree.stat ["w"] written = .error fault →
      fault.code = "ENOENT") ∧
    findScriptFiles stubTree ["w"] stubPaths = .ok ⟨stubFiles, ["gone", "gone"]⟩ ∧
    findScriptFiles stubTree ["w"] stubPaths.reverse = .ok ⟨stubFiles, ["gone", "gone"]⟩ ∧
    findScriptFiles stubTree ["w"] stubFiles = .ok ⟨stubFiles, []⟩ := by
  have wellFormed : stubTree.WellFormed := by
    unfold stubTree
    simp only [List.foldl]
    repeat' apply Tree.WellFormed.addFile
    · exact .empty
    all_goals decide
  have absent : ∀ written ∈ stubPaths, ∀ fault, stubTree.stat ["w"] written = .error fault →
      fault.code = "ENOENT" := by
    intro written mem fault failed
    simp only [stubPaths, List.mem_cons, List.not_mem_nil, or_false] at mem
    rcases mem with rfl | rfl | rfl | rfl | rfl | rfl | rfl <;> cases failed <;> rfl
  obtain ⟨files, found, increasing, -, reordered, -, again⟩ :=
    findScriptFiles_exact wellFormed ["w"] stubPaths absent
  have reversed := reordered stubPaths.reverse fun _ => List.mem_reverse
  -- The files are known by what is in them, as both lists increase.
  have known : files = stubFiles := by
    have brought : stubPaths.flatMap (Discovery.brought stubTree ["w"]) =
        ["/w/lib/~.so", "/w/lib/a.so/b.so", "/w/lib/😀.so", "/w/lib/\uFF5E.so",
          "/w/lib/node_modules/f.so", "/w/lib/a.so/b.so", "/w/lib/~.so", "/w/lib/a.so/b.so",
          "/w/lib/😀.so", "/w/lib/\uFF5E.so", "/w/lib/notes"] := by
      decide +kernel
    rw [findScriptFiles_eq_ok absent] at found
    cases found
    apply Text.Increasing.eq_of_mem_iff increasing (by unfold Text.Increasing; decide)
    intro file
    rw [Discovery.listed, Text.mem_sort_eraseDups, brought]
    simp only [stubFiles, List.mem_cons, List.not_mem_nil, or_false]
    grind
  subst known
  exact ⟨wellFormed, absent, found, reversed, again⟩

end LinkScript
