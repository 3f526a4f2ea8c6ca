import LinkScript.Proofs.Fields
import LinkScript.Proofs.Files.Path
import Mathlib.Data.List.Nodup

/-!
# File trees as they occur

In a file tree that occurs, the children of a directory have names of their own, and no two of them
the same one.  The tree type does not say so; `Tree.WellFormed` does.

* `Tree.induction`: what holds of a directory when it holds of its children holds of every tree.
* `Tree.WellFormed.lookup_iff` and `Tree.WellFormed.isPlain_of_locate`: what is looked up is what is
  there, and whatever is there is at a plain place.
* `Tree.WellFormed.hasFile_directory`: the files below a directory are those in its children.
* `Tree.WellFormed.addFile` and `Tree.WellFormed.addDirectory`: a tree stays well formed when it
  grows.
* `Tree.stat`: what is at the place that a written path means.
-/

namespace LinkScript

namespace Tree

/-- What holds of files, and of a directory when it holds of its children, holds of every tree. -/
@[elab_as_elim]
theorem induction {motive : Tree → Prop} (file : ∀ contents, motive (.file contents))
    (directory : ∀ children, (∀ child ∈ children, motive child.2) → motive (.directory children))
    (tree : Tree) : motive tree := by
  refine @Tree.rec motive (fun children => ∀ child ∈ children, motive child.2)
    (fun child => motive child.2) file directory ?nil ?cons ?pair tree
  case nil => simp
  case cons => exact fun _ _ first others => List.forall_mem_cons.mpr ⟨first, others⟩
  case pair => exact fun _ _ tree => tree

/-! ## Well-formed trees -/

/-- The children of every directory have names, each its own. -/
inductive WellFormed : Tree → Prop
  | file (contents : Bytes) : WellFormed (.file contents)
  | directory {children : List (String × Tree)}
      (distinct : (children.map Prod.fst).Nodup)
      (names : ∀ child ∈ children, Path.IsName child.1)
      (below : ∀ child ∈ children, WellFormed child.2) :
      WellFormed (.directory children)

/-- The empty tree is well-formed. -/
theorem WellFormed.empty : empty.WellFormed :=
  .directory List.nodup_nil (by simp) (by simp)

/-- In a well-formed directory a name finds exactly the child that has it. -/
theorem WellFormed.lookup_iff {children : List (String × Tree)}
    (wellFormed : (Tree.directory children).WellFormed) {name : String} {child : Tree} :
    children.lookup name = some child ↔ (name, child) ∈ children := by
  cases wellFormed with
  | directory distinct _ _ => exact Fields.get?_eq_some_iff_mem distinct

/-- A child of a well-formed directory is well-formed. -/
theorem WellFormed.of_mem {children : List (String × Tree)}
    (wellFormed : (Tree.directory children).WellFormed) {child : String × Tree}
    (mem : child ∈ children) : child.2.WellFormed := by
  cases wellFormed with
  | directory _ _ below => exact below child mem

/-- What is in a well-formed tree is well formed, and at a plain place. -/
theorem WellFormed.of_locate {root : Tree} (wellFormed : root.WellFormed) {place : Path}
    {tree : Tree} (located : root.locate place = .ok tree) :
    tree.WellFormed ∧ Path.IsPlain place := by
  induction place generalizing root with
  | nil =>
    have same : root = tree := by
      cases root <;> exact Except.ok.inj located
    exact ⟨same ▸ wellFormed, Path.isPlain_nil⟩
  | cons name place ih =>
    cases wellFormed with
    | file contents => cases located
    | directory distinct names below =>
      rw [locate] at located
      split at located
      · next child found =>
        have mem := (Fields.get?_eq_some_iff_mem distinct).mp found
        obtain ⟨inside, plain⟩ := ih (below _ mem) located
        exact ⟨inside, List.forall_mem_cons.mpr ⟨names _ mem, plain⟩⟩
      · cases located

/-- In a well-formed tree whatever is found is found by plain names. -/
theorem WellFormed.isPlain_of_locate {root : Tree} (wellFormed : root.WellFormed) {place : Path}
    {tree : Tree} (located : root.locate place = .ok tree) : Path.IsPlain place :=
  (wellFormed.of_locate located).2

/-! ## Files in a tree -/

/-- Whether names lead to a file. -/
def HasFile (tree : Tree) (way : Path) : Prop := ∃ contents, tree.locate way = .ok (.file contents)

/-- A file is at the end of no names, and nothing is below it. -/
theorem hasFile_file {contents : Bytes} {way : Path} : (file contents).HasFile way ↔ way = [] := by
  cases way <;> simp [HasFile, locate]

/-- A file below a directory is in one of its children. -/
theorem WellFormed.hasFile_directory {children : List (String × Tree)}
    (wellFormed : (Tree.directory children).WellFormed) {way : Path} :
    (Tree.directory children).HasFile way ↔
      ∃ child ∈ children, ∃ rest, way = child.1 :: rest ∧ child.2.HasFile rest := by
  constructor
  · rintro ⟨contents, located⟩
    cases way with
    | nil => cases located
    | cons name rest =>
      rw [locate] at located
      split at located
      · next child found =>
        exact ⟨(name, child), wellFormed.lookup_iff.mp found, rest, rfl, contents, located⟩
      · cases located
  · rintro ⟨⟨name, child⟩, mem, rest, rfl, contents, located⟩
    refine ⟨contents, ?_⟩
    rw [locate, wellFormed.lookup_iff.mpr mem]
    exact located

/-- A directory is no file itself. -/
theorem not_hasFile_directory_nil (children : List (String × Tree)) :
    ¬ (directory children).HasFile [] := by
  rintro ⟨contents, located⟩
  cases located

/-- A file further down is a file below what is on the way. -/
theorem hasFile_append {root : Tree} {place way : Path} :
    root.HasFile (place ++ way) ↔ ∃ tree, root.locate place = .ok tree ∧ tree.HasFile way := by
  unfold HasFile
  rw [locate_append]
  constructor
  · rintro ⟨contents, located⟩
    rcases above : root.locate place with absent | tree
    · rw [above] at located
      cases located
    · rw [above] at located
      exact ⟨tree, rfl, contents, located⟩
  · rintro ⟨tree, above, contents, located⟩
    rw [above]
    exact ⟨contents, located⟩

/-! ## Growing -/

/-- Changing a child keeps the names, and adds the one that is new. -/
theorem map_fst_updateChild (name : String) (change : Option Tree → Tree)
    (children : List (String × Tree)) :
    (updateChild name change children).map Prod.fst =
      if name ∈ children.map Prod.fst then children.map Prod.fst
      else children.map Prod.fst ++ [name] := by
  induction children with
  | nil => rfl
  | cons first rest ih =>
    obtain ⟨other, tree⟩ := first
    by_cases same : other = name
    · simp [updateChild, same]
    · rw [updateChild, if_neg same, List.map_cons, ih]
      split <;> simp_all [Ne.symm]

/-- A child that was changed is one from before, or what was made for the name. -/
theorem mem_updateChild {name : String} {change : Option Tree → Tree}
    {children : List (String × Tree)} {child : String × Tree}
    (mem : child ∈ updateChild name change children) :
    child ∈ children ∨
      ∃ old : Option Tree, (∀ tree ∈ old, (name, tree) ∈ children) ∧
        child = (name, change old) := by
  induction children with
  | nil => exact Or.inr ⟨none, by simp, by simpa [updateChild] using mem⟩
  | cons first rest ih =>
    obtain ⟨other, tree⟩ := first
    rw [updateChild] at mem
    split at mem
    · next same =>
      subst same
      rcases List.mem_cons.mp mem with rfl | behind
      · exact Or.inr ⟨some tree, by simp, rfl⟩
      · exact Or.inl (List.mem_cons_of_mem _ behind)
    · rcases List.mem_cons.mp mem with rfl | behind
      · exact Or.inl List.mem_cons_self
      · rcases ih behind with before | ⟨old, from_, made⟩
        · exact Or.inl (List.mem_cons_of_mem _ before)
        · exact Or.inr ⟨old, fun tree mem => List.mem_cons_of_mem _ (from_ tree mem), made⟩

/-- **A well-formed tree stays so** when a plain place in it is changed to something well formed. -/
theorem WellFormed.update {place : Path} (plain : Path.IsPlain place)
    {change : Option Tree → Tree}
    (keeps : ∀ old : Option Tree, (∀ tree ∈ old, tree.WellFormed) → (change old).WellFormed)
    {tree : Option Tree} (wellFormed : ∀ found ∈ tree, found.WellFormed) :
    (Tree.update tree place change).WellFormed := by
  induction place generalizing tree with
  | nil => simpa [Tree.update] using keeps tree wellFormed
  | cons name place ih =>
    obtain ⟨isName, plain⟩ := List.forall_mem_cons.mp plain
    -- Where no directory is, one is made with a single child.
    have fresh : (Tree.directory [(name, Tree.update none place change)]).WellFormed := by
      have made : (Tree.update none place change).WellFormed := ih plain (by simp)
      exact .directory (List.nodup_singleton name) (by simpa using isName) (by simpa using made)
    match tree, wellFormed with
    | none, _ => exact fresh
    | some (.file _), _ => exact fresh
    | some (.directory children), wellFormed =>
      cases wellFormed _ rfl with
      | directory distinct names below =>
        refine .directory ?_ ?_ ?_
        · rw [map_fst_updateChild]
          split
          · exact distinct
          · next new => simpa using List.Nodup.concat new distinct
        · intro child mem
          rcases mem_updateChild mem with before | ⟨_, _, rfl⟩
          · exact names child before
          · exact isName
        · intro child mem
          rcases mem_updateChild mem with before | ⟨old, there, rfl⟩
          · exact below child before
          · exact ih plain fun tree mem => below _ (there tree mem)

/-- Adding a file by plain names keeps a tree well-formed. -/
theorem WellFormed.addFile {root : Tree} (wellFormed : root.WellFormed) {place : Path}
    (plain : Path.IsPlain place) (contents : Bytes) : (root.addFile place contents).WellFormed :=
  .update plain (fun _ _ => .file contents) (by simpa using wellFormed)

/-- Adding a directory by plain names keeps a tree well-formed. -/
theorem WellFormed.addDirectory {root : Tree} (wellFormed : root.WellFormed) {place : Path}
    (plain : Path.IsPlain place) : (root.addDirectory place).WellFormed := by
  refine .update plain (fun old wellFormed => ?_) (by simpa using wellFormed)
  split
  · exact wellFormed _ rfl
  · exact .empty

/-! ## What a written path means -/

/-- What is at the place that a written path means from a working directory. -/
def stat (root : Tree) (cwd : Path) (written : String) : Except FileFault Tree :=
  (root.locate (Path.resolve cwd written)).mapError fun absent =>
    absent.fault .stat (Path.resolve cwd written).render

/-- A look at a written path finds what is at the place that it means. -/
theorem stat_eq_ok_iff {root : Tree} {cwd : Path} {written : String} {tree : Tree} :
    root.stat cwd written = .ok tree ↔ root.locate (Path.resolve cwd written) = .ok tree := by
  rw [stat]
  cases root.locate (Path.resolve cwd written) <;> simp [Except.mapError]

end Tree

end LinkScript
