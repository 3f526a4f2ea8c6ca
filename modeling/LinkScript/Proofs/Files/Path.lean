import LinkScript.Files.Tree
import LinkScript.Proofs.Text

/-!
# Two ways to one place

A place can be written as a path from the root, and the names of that path are followed one after
another; or its names are known, and they are located.

* `Path.IsPlain`: a place that is given by names alone.  `Path.isPlain_resolve` says that a written
  path means such a place, seen from another one.
* `Path.names_render`: the names of a place can be told from how it is written, and
  `Path.resolve_render`: so the path of a place means that place.
* `Tree.follow_eq_locate`: following plain names and locating them comes to the same.
* `Tree.read_render` puts these together: what is read at the path of a place is what is there.
-/

namespace LinkScript

namespace Path

/-! ## Plain names -/

/-- A name of something in a directory: it is neither empty nor one of the two names with a meaning
of their own, and it has no slash in it. -/
structure IsName (name : String) : Prop where
  nonempty : name ≠ ""
  notHere : name ≠ "."
  notUp : name ≠ ".."
  slashless : '/' ∉ name.toList

instance (name : String) : Decidable (IsName name) :=
  decidable_of_iff (name ≠ "" ∧ name ≠ "." ∧ name ≠ ".." ∧ '/' ∉ name.toList)
    ⟨fun ⟨nonempty, notHere, notUp, slashless⟩ => ⟨nonempty, notHere, notUp, slashless⟩,
      fun is => ⟨is.nonempty, is.notHere, is.notUp, is.slashless⟩⟩

/-- A place given by names of things in directories. -/
def IsPlain (place : Path) : Prop := ∀ name ∈ place, IsName name

instance (place : Path) : Decidable (IsPlain place) :=
  inferInstanceAs (Decidable (∀ name ∈ place, IsName name))

/-- The root is given by no names. -/
theorem isPlain_nil : IsPlain [] := List.forall_mem_nil _

/-- A name of something in a directory leads one place further down. -/
theorem step_of_isName {name : String} (is : IsName name) (place : Path) :
    step place name = place ++ [name] := by
  simp [step, is.nonempty, is.notHere, is.notUp]

/-- A name further along, a plain place stays plain. -/
theorem isPlain_step {place : Path} (plain : IsPlain place) {name : String}
    (slashless : '/' ∉ name.toList) : IsPlain (step place name) := by
  unfold step
  split
  · exact plain
  · next other =>
    split
    · exact fun found mem => plain found (List.dropLast_subset place mem)
    · next notUp =>
      simp only [not_or] at other
      intro found mem
      rcases List.mem_append.mp mem with before | here
      · exact plain found before
      · rw [List.mem_singleton.mp here]
        exact ⟨other.1, other.2, notUp, slashless⟩

/-- Names without slashes lead from a plain place to a plain place. -/
theorem isPlain_foldl {names : List String} (slashless : ∀ name ∈ names, '/' ∉ name.toList)
    {place : Path} (plain : IsPlain place) : IsPlain (names.foldl step place) := by
  induction names generalizing place with
  | nil => exact plain
  | cons name names ih =>
    have first := isPlain_step plain (slashless name List.mem_cons_self)
    exact ih (fun other mem => slashless other (List.mem_cons_of_mem _ mem)) first

/-- **A written path means a plain place**, seen from a plain place. -/
theorem isPlain_resolve {cwd : Path} (plain : IsPlain cwd) (written : String) :
    IsPlain (resolve cwd written) := by
  apply isPlain_foldl
  · intro name mem
    obtain ⟨part, among, rfl⟩ := List.mem_map.mp mem
    simpa using Text.not_mem_of_mem_splitAt among
  · split
    · exact isPlain_nil
    · exact plain

/-! ## Written places -/

/-- The path of a place begins at the root. -/
theorem isAbsolute_render (place : Path) : isAbsolute place.render = true := by
  simp [isAbsolute, render]

/-- The names of a place are the names of its path, behind the empty one before the first slash. -/
theorem names_render {place : Path} (plain : IsPlain place) (some : place ≠ []) :
    names place.render = "" :: place := by
  have cut : Text.splitAt '/' (List.intercalate ['/'] (place.map String.toList)) =
      place.map String.toList := by
    apply Text.splitAt_intercalate (by simpa using some)
    simpa using fun name mem => (plain name mem).slashless
  have lead : place.render.toList = '/' :: List.intercalate ['/'] (place.map String.toList) := by
    simp [render]
  rw [names, lead, Text.splitAt, if_pos rfl, cut]
  simp

/-- The path of the root has an empty name on either side of its slash. -/
theorem names_render_nil : names (render []) = ["", ""] := by
  decide

/-- Plain names lead to where they are names of. -/
theorem foldl_step {names : List String} (plain : IsPlain names) (place : Path) :
    names.foldl step place = place ++ names := by
  induction names generalizing place with
  | nil => simp
  | cons name names ih =>
    obtain ⟨first, others⟩ := List.forall_mem_cons.mp plain
    rw [List.foldl_cons, step_of_isName first, ih others, List.append_assoc,
      List.singleton_append]

/-- **The path of a plain place means that place**, from wherever it is read. -/
theorem resolve_render {place : Path} (plain : IsPlain place) (cwd : Path) :
    resolve cwd place.render = place := by
  rw [resolve, if_pos (isAbsolute_render place)]
  by_cases nothing : place = []
  · subst nothing
    rw [names_render_nil]
    rfl
  · rw [names_render plain nothing, List.foldl_cons]
    exact foldl_step plain []

end Path

namespace Tree

/-! ## Following and locating -/

/-- A place further down is located from the place above it. -/
theorem locate_append (tree : Tree) (above below : Path) :
    tree.locate (above ++ below) = tree.locate above >>= fun found => found.locate below := by
  induction above generalizing tree with
  | nil => cases tree <;> rfl
  | cons name above ih =>
    cases tree with
    | file contents => rfl
    | directory children =>
      rw [List.cons_append, locate, locate]
      cases children.lookup name with
      | none => rfl
      | some child => exact ih child

/-- **Following plain names and locating them comes to the same.** -/
theorem follow_eq_locate {root : Tree} {names : List String} (plain : Path.IsPlain names)
    (here : Path) : root.follow here names = root.locate (here ++ names) := by
  induction names generalizing here with
  | nil => rw [follow, List.append_nil]
  | cons name names ih =>
    have along := Path.step_of_isName (plain name List.mem_cons_self) here
    have rest := ih (fun other mem => plain other (List.mem_cons_of_mem _ mem)) (here ++ [name])
    rw [List.append_assoc, List.singleton_append] at rest
    rw [follow, along, rest, locate_append]
    cases root.locate here with
    | error absent => rfl
    | ok tree => cases tree <;> rfl

/-- Whether a tree is a directory. -/
def IsDirectory (tree : Tree) : Prop := ∃ children, tree = .directory children

/-- The path of a place leads there, from a root that is a directory. -/
theorem follow_names_render {root : Tree} (isRoot : root.IsDirectory) {place : Path}
    (plain : Path.IsPlain place) :
    root.follow [] (Path.names place.render) = root.locate place := by
  obtain ⟨children, rfl⟩ := isRoot
  by_cases nothing : place = []
  · subst nothing
    rw [Path.names_render_nil]
    rfl
  · rw [Path.names_render plain nothing]
    exact follow_eq_locate plain []

/-- **What is read at the path of a place is what is there.** -/
theorem read_render {root : Tree} (isRoot : root.IsDirectory) (cwd : Path) {place : Path}
    (plain : Path.IsPlain place) :
    root.read cwd place.render =
      match root.locate place with
      | .ok (.file contents) => .ok contents
      | .ok (.directory _) => .error .isDirectory
      | .error absent => .error (absent.fault .opening place.render) := by
  have some : place.render ≠ "" := by simp [Path.render]
  have followed := follow_names_render isRoot plain
  rcases located : root.locate place with absent | (contents | children) <;>
    · rw [located] at followed
      simp [read, some, Path.isAbsolute_render, followed]

end Tree

end LinkScript
