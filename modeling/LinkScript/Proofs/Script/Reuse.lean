import LinkScript.Proofs.Script.Acceptance
import Mathlib.Data.List.Basic

/-!
# Using a parser again

A parser may be used for one script after another, whatever became of the scripts before, and what
it has handed out stays as it is.

* `Parser.Reads` is one run.  A run that fails may leave any progress in the parser, as far as it
  came or not, so nothing here depends on what is left.
* `Parser.Reads.lists_prefix`: a run touches no list but the new one that it makes.
  `Parser.Reads.look_eq`: what it hands out shows what `parse` gives.
* `Parser.ReadsAll` is one run after another, and `Parser.readsAll_readEach` says that
  `Parser.readEach` is such runs.
* `Parser.reuse`: every run of a parser gives what a new parser gives, and later runs change none of
  it.
-/

namespace LinkScript

namespace Parser

variable {parser middle last : Parser} {source : Bytes} {sources : List Bytes}
  {outcome : Except ParseFault Output} {outcomes : List (Except ParseFault Output)}

/-! ## Runs -/

/-- One run of a parser, from a source to an outcome and the parser after it. -/
inductive Reads (parser : Parser) :
    Bytes → Except ParseFault Output → Parser → Prop where
  /-- The source does not tokenize: the run does not begin. -/
  | refused {source : Bytes} {failure : LinkFailure} : tokenize source = .error failure →
      Reads parser source (.error (.link failure)) parser
  /-- The run begins and fails.  It may leave any progress. -/
  | stopped {source : Bytes} {lexemes : List Lexeme} {fault : ParseFault} (left : Progress) :
      tokenize source = .ok lexemes → (parser.start lexemes).progress.script = .error fault →
      Reads parser source (.error fault) ((parser.start lexemes).comeTo left)
  /-- The run comes to the end, and hands out its own list. -/
  | finished {source : Bytes} {lexemes : List Lexeme} {finish : Progress} :
      tokenize source = .ok lexemes → (parser.start lexemes).progress.script = .ok finish →
      Reads parser source (.ok ⟨finish.cpuArch, (parser.start lexemes).own⟩)
        ((parser.start lexemes).comeTo finish)

/-- One run of a parser after another, from sources to outcomes and the parser in the end. -/
inductive ReadsAll :
    Parser → List Bytes → List (Except ParseFault Output) → Parser → Prop where
  | nil {parser : Parser} : ReadsAll parser [] [] parser
  | cons {parser middle last : Parser} {source : Bytes} {sources : List Bytes}
      {outcome : Except ParseFault Output} {outcomes : List (Except ParseFault Output)} :
      parser.Reads source outcome middle → ReadsAll middle sources outcomes last →
      ReadsAll parser (source :: sources) (outcome :: outcomes) last

/-! ## What a run touches -/

/-- A run begins with nothing read, whatever the parser held before. -/
theorem progress_start (parser : Parser) (lexemes : List Lexeme) :
    (parser.start lexemes).progress = { place := { items := lexemes.toArray } } := by
  simp [progress, start]

/-- A parser that comes to where it is stays as it is. -/
theorem comeTo_progress (parser : Parser) : parser.comeTo parser.progress = parser := by
  have same : parser.lists.setIfInBounds parser.own (parser.lists.getD parser.own #[]) =
      parser.lists := by
    apply Array.ext_getElem?
    intro index
    rw [Array.getElem?_setIfInBounds]
    split
    · next own =>
      subst own
      by_cases inside : parser.own < parser.lists.size <;> simp [inside]
    · rfl
  simp only [comeTo, progress, same]

/-- A run fills the list that it has made, behind all the lists before. -/
theorem lists_comeTo_start (parser : Parser) (lexemes : List Lexeme) (progress : Progress) :
    ((parser.start lexemes).comeTo progress).lists = parser.lists.push progress.entries := by
  apply Array.toList_inj.mp
  simp [comeTo, start]

/-- The list that a run has filled holds what was read. -/
theorem look_comeTo_start (parser : Parser) (lexemes : List Lexeme) (progress : Progress) :
    ((parser.start lexemes).comeTo progress).look ⟨progress.cpuArch, (parser.start lexemes).own⟩ =
      progress.contents := by
  rw [look, lists_comeTo_start]
  simp [start, Progress.contents]

/-- A run leaves the lists before it as they are. -/
theorem Reads.lists_prefix (run : parser.Reads source outcome last) :
    parser.lists.toList <+: last.lists.toList := by
  cases run with
  | refused => exact List.prefix_refl _
  | stopped | finished =>
    rw [lists_comeTo_start, Array.toList_push]
    exact List.prefix_append _ _

/-- The list that a run hands out is one of the parser's. -/
theorem Reads.list_lt_size {output : Output} (run : parser.Reads source (.ok output) last) :
    output.list < last.lists.size := by
  cases run with
  | finished =>
    rw [lists_comeTo_start, Array.size_push]
    exact Nat.lt_succ_self _

/-- **What a run hands out shows what the source is parsed to**, whatever the parser was used for
before. -/
theorem Reads.look_eq (run : parser.Reads source outcome last) :
    outcome.map last.look = parse source := by
  cases run with
  | refused refused =>
    rw [parse, refused]
    rfl
  | stopped left tokens failed =>
    rw [progress_start] at failed
    rw [parse, tokens]
    show _ = parseLexemes _
    rw [parseLexemes, failed]
    rfl
  | finished tokens done =>
    rw [progress_start] at done
    rw [parse, tokens]
    show _ = parseLexemes _
    rw [parseLexemes, done]
    exact congrArg Except.ok (look_comeTo_start parser _ _)

/-- An output shows the same for as long as its list is left as it is. -/
theorem look_of_prefix {output : Output} (inside : output.list < parser.lists.size)
    (kept : parser.lists.toList <+: last.lists.toList) : last.look output = parser.look output := by
  obtain ⟨more, whole⟩ := kept
  have same : last.lists[output.list]? = parser.lists[output.list]? := by
    rw [← Array.getElem?_toList, ← whole, List.getElem?_append_left (by simpa using inside),
      Array.getElem?_toList]
  simp only [look, Array.getD_eq_getD_getElem?, same]

/-! ## One run after another -/

namespace ReadsAll

/-- Runs leave the lists before them as they are. -/
theorem lists_prefix (runs : parser.ReadsAll sources outcomes last) :
    parser.lists.toList <+: last.lists.toList := by
  induction runs with
  | nil => exact List.prefix_refl _
  | cons run _ ih => exact run.lists_prefix.trans ih

/-- What runs have handed out shows the same after more runs. -/
theorem look_eq_look {more : List Bytes} {later : List (Except ParseFault Output)}
    (runs : parser.ReadsAll sources outcomes middle) (further : middle.ReadsAll more later last) :
    outcomes.map (·.map last.look) = outcomes.map (·.map middle.look) := by
  induction runs with
  | nil => rfl
  | @cons parser behind middle source sources outcome outcomes run runs ih =>
    rw [List.map_cons, List.map_cons, ih further]
    congr 1
    cases outcome with
    | error fault => rfl
    | ok output =>
      have inside := run.list_lt_size
      have first := look_of_prefix inside runs.lists_prefix
      have second := look_of_prefix inside (runs.lists_prefix.trans further.lists_prefix)
      exact congrArg Except.ok (second.trans first.symm)

/-- **Runs show what their sources are parsed to**, each by itself. -/
theorem look_eq (runs : parser.ReadsAll sources outcomes last) :
    outcomes.map (·.map last.look) = sources.map parse := by
  induction runs with
  | nil => rfl
  | @cons parser middle last source sources outcome outcomes run runs ih =>
    have first : ReadsAll parser [source] [outcome] middle := .cons run .nil
    have same := first.look_eq_look runs
    rw [List.map_singleton, List.map_singleton, List.singleton_inj] at same
    rw [List.map_cons, List.map_cons, ih, same, run.look_eq]

end ReadsAll

/-- `read` is a run. -/
theorem reads_read (parser : Parser) (source : Bytes) :
    parser.Reads source (parser.read source).1 (parser.read source).2 := by
  unfold read
  split
  · next refused => exact .refused refused
  · next lexemes tokens =>
    dsimp only
    split
    · next failed =>
      have run := Reads.stopped (parser.start lexemes).progress tokens failed
      rwa [comeTo_progress] at run
    · next done => exact .finished tokens done

/-- `readEach` is one run after another. -/
theorem readsAll_readEach (parser : Parser) (sources : List Bytes) :
    parser.ReadsAll sources (parser.readEach sources).1 (parser.readEach sources).2 := by
  induction sources generalizing parser with
  | nil => exact .nil
  | cons source sources ih => exact .cons (parser.reads_read source) (ih _)

/-- The outcome of a source alone: what a new parser hands out, looked at when its run is over. -/
def alone (source : Bytes) : Except ParseFault Contents :=
  let (outcome, after) := ({} : Parser).read source
  outcome.map after.look

/-- By itself a source shows what it is parsed to. -/
theorem alone_eq (source : Bytes) : alone source = parse source :=
  (reads_read {} source).look_eq

/-- **A parser can be used again.**  Let a parser run over some sources and then over more of them,
with whatever outcomes, and with anything left by the runs that fail.  Then every outcome shows what
a new parser gives for that source alone, right behind its run and behind all runs after it. -/
theorem reuse {front back : List Bytes} {given later : List (Except ParseFault Output)}
    (before : parser.ReadsAll front given middle) (behind : middle.ReadsAll back later last) :
    given.map (·.map middle.look) = front.map alone ∧
      given.map (·.map last.look) = given.map (·.map middle.look) ∧
      later.map (·.map last.look) = back.map alone ∧
      parser.readAll (front ++ back) = (front ++ back).map alone := by
  have alone_eq_parse : alone = parse := funext alone_eq
  rw [alone_eq_parse]
  exact ⟨before.look_eq, before.look_eq_look behind, behind.look_eq,
    (parser.readsAll_readEach (front ++ back)).look_eq⟩

/-- A script of one library. -/
def oneLibrary : Bytes := Text.Utf8.encode "INPUT(c)"

/-- A script that breaks off inside its group. -/
def brokenOff : Bytes := Text.Utf8.encode "GROUP(a b"

/-- A parser reads a script, breaks off in another one with a library and an architecture left over,
and then reads the first script again. -/
theorem reuse_brokenOff : ∃ given middle later last,
    ({} : Parser).ReadsAll [oneLibrary] given middle ∧
    middle.ReadsAll [brokenOff, oneLibrary] later last ∧
    last.lists.toList.map Array.size = [0, 1, 1, 1] ∧
    given.map (·.map last.look) = [.ok ⟨none, [⟨"c", true, ⟨6, 7⟩⟩]⟩] ∧
    later.map (·.map last.look) = [.error (.link ⟨.unexpectedToken .eof "", ⟨0, 9⟩⟩),
      .ok ⟨none, [⟨"c", true, ⟨6, 7⟩⟩]⟩] := by
  let left : Progress :=
    { place := { items := #[] }, cpuArch := some .aarch64, entries := #[⟨"a", true, ⟨6, 7⟩⟩] }
  have before := readsAll_readEach {} [oneLibrary]
  generalize reached : (({} : Parser).readEach [oneLibrary]).2 = middle at before
  have tokens : tokenize brokenOff = .ok (scan brokenOff) := tokenize_eq_scan (by decide +kernel)
  have failed : (middle.start (scan brokenOff)).progress.script =
      .error (.link ⟨.unexpectedToken .eof "", ⟨0, 9⟩⟩) := by
    rw [progress_start]
    decide +kernel
  have broken : middle.Reads brokenOff _ _ := .stopped left tokens failed
  have behind := ReadsAll.cons broken (readsAll_readEach _ [oneLibrary])
  obtain ⟨shown, kept, further, -⟩ := reuse before behind
  refine ⟨_, middle, _, _, before, behind, ?_, ?_, ?_⟩
  · subst reached
    decide +kernel
  · rw [kept, shown]
    decide +kernel
  · rw [further]
    decide +kernel

end Parser

end LinkScript
