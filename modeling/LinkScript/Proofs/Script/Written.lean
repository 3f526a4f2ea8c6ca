import LinkScript.Proofs.Script.Acceptance
import LinkScript.Proofs.Token.Word

/-!
# Scripts that are written read back

A script can be put together from directives and written down with any blanks.  Reading the text
gives the directives' contents again.

* `Directive` is what is written: a format, or a group of library names (`Path`), some of them in
  `AS_NEEDED` lists.  `Directive.arch?` and `Directive.libraries` are what it stands for.
* `Words`, `Line` and `Lines` are the ways to write it: a directive in words, words in a line with
  a gap after each, and lines with line breaks between them.
* `Line.scanFrom_eq` finds the words of a line again in the scan of its bytes.
* `Reads` says what a run over given kinds and texts adds, wherever they stand in the source.  It
  is closed under putting one list behind another, which follows the shape of a directive.
* `parse_lines` is the way back from bytes to contents.
-/

namespace LinkScript

/-- The libraries of some contents, each with whether it is needed. -/
def Contents.libraries (contents : Contents) : List (String × Bool) :=
  contents.entries.map fun entry => (entry.path, entry.needed)

namespace Written

open Text.Utf8

/-! ## What is written -/

/-- A library name that can be written. -/
structure Path where
  text : String
  plain : Plain text
  not_keyword : ∀ keyword : Command, keyword.name ≠ text

/-- A member of a group. -/
inductive Item where
  | path (name : Path)
  | asNeeded (names : List Path)

/-- The libraries of a member, each with whether it is needed. -/
def Item.libraries : Item → List (String × Bool)
  | .path name => [(name.text, true)]
  | .asNeeded names => names.map fun name => (name.text, false)

/-- A directive of a script. -/
inductive Directive where
  | format (arch : CpuArch)
  | group (items : List Item)

namespace Directive

/-- The architecture that a directive selects. -/
def arch? : Directive → Option CpuArch
  | .format arch => some arch
  | .group _ => none

/-- The libraries of a directive, each with whether it is needed. -/
def libraries : Directive → List (String × Bool)
  | .format _ => []
  | .group items => items.flatMap Item.libraries

end Directive

/-! ## How it is written -/

/-- A token of a directive. -/
inductive Word where
  | lparen
  | rparen
  | keyword (command : Command)
  | path (name : Path)

namespace Word

/-- What a word is to the scanner. -/
def kind : Word → TokenKind
  | lparen => .lparen
  | rparen => .rparen
  | keyword command => .command command
  | path _ => .literal

/-- How a word is spelled. -/
def text : Word → String
  | lparen => "("
  | rparen => ")"
  | keyword command => command.name
  | path name => name.text

end Word

/-- The format of an architecture is a literal like a library name. -/
def formatPath (arch : CpuArch) : Path where
  text := arch.outputFormat
  plain := by cases arch <;> decide +kernel
  not_keyword := by
    intro keyword
    cases arch <;> cases keyword <;> decide

/-- The words of a member. -/
def Item.words : Item → List Word
  | .path name => [.path name]
  | .asNeeded names => .keyword .asNeeded :: .lparen :: names.map .path ++ [.rparen]

/-- The words of a directive.  A group may be called by either of two names. -/
inductive Words : Directive → List Word → Prop where
  | format (arch : CpuArch) : Words (.format arch)
      [.keyword .outputFormat, .lparen, .path (formatPath arch), .rparen]
  | input (items : List Item) : Words (.group items)
      (.keyword .input :: .lparen :: items.flatMap Item.words ++ [.rparen])
  | group (items : List Item) : Words (.group items)
      (.keyword .group :: .lparen :: items.flatMap Item.words ++ [.rparen])

/-- What may stand between two words: a space, and then spaces and tabs. -/
def Gap (gap : String) : Prop :=
  ∃ more, gap.toList = ' ' :: more ∧ ∀ char ∈ more, char = ' ' ∨ char = '\t'

/-- A line with some words on it. -/
inductive Line : List Word → String → Prop where
  | last (word : Word) : Line [word] word.text
  | more {gap line : String} {words : List Word} (word : Word) : Gap gap → Line words line →
      Line (word :: words) (word.text ++ gap ++ line)

/-- A text with one directive on each line.  The last line may be ended or not. -/
inductive Lines : List Directive → String → Prop where
  | nil : Lines [] ""
  | last {directive : Directive} {words : List Word} {line : String} :
      Words directive words → Line words line → Lines [directive] line
  | cons {directive : Directive} {words : List Word} {line lineBreak text : String}
      {directives : List Directive} : Words directive words → Line words line →
      lineBreak = "\n" ∨ lineBreak = "\r\n" → Lines directives text →
      Lines (directive :: directives) (line ++ lineBreak ++ text)

/-! ## Words are found again -/

/-- The bytes of a gap are blanks. -/
theorem Gap.blank {gap : String} (h : Gap gap) : ∀ byte ∈ encode gap, Byte.isBlank byte := by
  obtain ⟨more, chars, others⟩ := h
  intro byte mem
  obtain ⟨char, within, part⟩ := List.mem_flatMap.mp mem
  rw [chars, List.mem_cons] at within
  have either : char = ' ' ∨ char = '\t' := within.elim Or.inl (others char)
  rcases either with rfl | rfl
  · rw [List.mem_singleton.mp part]
    decide
  · rw [List.mem_singleton.mp part]
    decide

/-- A gap ends a literal. -/
theorem Gap.stops {gap : String} (h : Gap gap) (rest : Bytes) : Stops (encode gap ++ rest) := by
  obtain ⟨more, chars, -⟩ := h
  have bytes : encode gap = Byte.space :: more.flatMap String.utf8EncodeChar := by
    rw [encode, chars]
    rfl
  rw [bytes]
  exact stops_cons (by decide) (by decide)

/-- A line break ends a literal. -/
theorem stops_lineBreak {lineBreak : String} (h : lineBreak = "\n" ∨ lineBreak = "\r\n")
    (rest : Bytes) : Stops (encode lineBreak ++ rest) := by
  rcases h with rfl | rfl
  · exact stops_cons (by decide) (by decide)
  · rintro _ ⟨⟩
    exact ⟨by decide, fun _ => rfl⟩

/-- Kind and text of a word. -/
def Word.sign (word : Word) : TokenKind × String := (word.kind, word.text)

/-- **A word behind blanks is found again**, and the scan goes on behind it. -/
theorem Word.scanFrom_eq (word : Word) {gap rest : Bytes} (mark : Mark)
    (blank : ∀ byte ∈ gap, Byte.isBlank byte) (stops : Stops rest) :
    ∃ lexeme after, scanFrom mark (gap ++ (encode word.text ++ rest)) =
      lexeme :: scanFrom after rest ∧ lexeme.sign = word.sign := by
  have cut : Token.next (gap ++ (encode word.text ++ rest)) =
      ⟨gap, word.kind, encode word.text, rest⟩ := by
    cases word with
    | lparen => exact Token.next_of_single (by decide) blank
    | rparen => exact Token.next_of_single (by decide) blank
    | keyword command =>
      have plain : Plain command.name := by cases command <;> decide +kernel
      rw [text, Token.next_of_plain plain blank stops, Token.literalKind_name, kind]
    | path name =>
      rw [text, Token.next_of_plain name.plain blank stops,
        Token.literalKind_of_plain name.plain name.not_keyword, kind]
  have other : word.kind ≠ .eof := by cases word <;> simp [kind]
  have decoded : decode (encode word.text) = word.text := by
    cases word with
    | lparen => decide +kernel
    | rparen => decide +kernel
    | keyword command => cases command <;> decide +kernel
    | path name => exact name.plain.decode_eq
  refine ⟨_, _, scanFrom_of_next cut other, ?_⟩
  simp [Lexeme.sign, Lexeme.text, Cut.lexeme, decoded, Word.sign]

/-- **The words of a line are found again**, and the scan goes on behind the line. -/
theorem Line.scanFrom_eq {words : List Word} {line : String} (h : Line words line) (mark : Mark)
    (gap : Bytes) {rest : Bytes} (blank : ∀ byte ∈ gap, Byte.isBlank byte) (stops : Stops rest) :
    ∃ front after, scanFrom mark (gap ++ (encode line ++ rest)) = front ++ scanFrom after rest ∧
      front.map Lexeme.sign = words.map Word.sign := by
  induction h generalizing mark gap with
  | last word =>
    obtain ⟨lexeme, after, scan, sign⟩ := word.scanFrom_eq mark blank stops
    exact ⟨[lexeme], after, scan, by simp [sign]⟩
  | @more between line words word isGap _ ih =>
    obtain ⟨lexeme, middle, scan, sign⟩ := word.scanFrom_eq mark blank
      (isGap.stops (encode line ++ rest))
    obtain ⟨front, after, tail, signs⟩ := ih middle (encode between) isGap.blank
    refine ⟨lexeme :: front, after, ?_, by simp [sign, signs]⟩
    rw [encode_append, encode_append, List.append_assoc, List.append_assoc, scan, tail,
      List.cons_append]

/-- A line break is found again. -/
theorem scanFrom_lineBreak {lineBreak : String} (h : lineBreak = "\n" ∨ lineBreak = "\r\n")
    (mark : Mark) (rest : Bytes) :
    ∃ lexeme after, scanFrom mark (encode lineBreak ++ rest) = lexeme :: scanFrom after rest ∧
      lexeme.kind = .newline := by
  have cut : Token.next (encode lineBreak ++ rest) = ⟨[], .newline, encode lineBreak, rest⟩ := by
    rcases h with rfl | rfl
    · rfl
    · rfl
  exact ⟨_, _, scanFrom_of_next cut (by simp), rfl⟩

/-! ## What words add

`Reads` speaks of a stretch of lexemes by their kinds and texts alone, and of what a run over them
adds to the contents, whatever has been read before. -/

/-- A run over lexemes with the given kinds and texts leads from one phase to another and adds an
architecture and some libraries. -/
def Reads (start finish : Phase) (signs : List (TokenKind × String)) (arch : Option CpuArch)
    (added : List (String × Bool)) : Prop :=
  ∀ (lexemes : List Lexeme) (contents : Contents), lexemes.map Lexeme.sign = signs →
    ∃ after : Contents, Reading.run ⟨contents, start⟩ lexemes = .ok ⟨after, finish⟩ ∧
      after.cpuArch = arch.or contents.cpuArch ∧ after.libraries = contents.libraries ++ added

namespace Reads

/-- Nothing adds nothing. -/
theorem nil (phase : Phase) : Reads phase phase [] none [] := by
  intro lexemes contents signs
  rw [List.map_eq_nil_iff.mp signs]
  exact ⟨contents, rfl, by simp, by simp⟩

/-- One stretch behind another adds what both add, and the architecture of the latter counts. -/
theorem append {start middle finish : Phase} {front back : List (TokenKind × String)}
    {first second : Option CpuArch} {early late : List (String × Bool)}
    (h : Reads start middle front first early) (h' : Reads middle finish back second late) :
    Reads start finish (front ++ back) (second.or first) (early ++ late) := by
  intro lexemes contents signs
  obtain ⟨begins, ends, rfl, front, back⟩ := List.map_eq_append_iff.mp signs
  obtain ⟨between, run, arch, libs⟩ := h begins contents front
  obtain ⟨after, run', arch', libs'⟩ := h' ends between back
  refine ⟨after, ?_, ?_, ?_⟩
  · rw [Reading.run_append, run]
    exact run'
  · rw [arch', arch, Option.or_assoc]
  · rw [libs', libs, List.append_assoc]

/-- A parenthesis or a keyword adds nothing where it closes no format. -/
theorem word {start finish : Phase} (word : Word)
    (leads : ∀ lexeme : Lexeme, lexeme.kind = word.kind → start.next lexeme = some finish)
    (other : word.kind ≠ .literal := by decide)
    (unselected : ∀ lexeme, start.selected? lexeme = none := by exact fun _ => rfl) :
    Reads start finish [word.sign] none [] := by
  intro lexemes contents signs
  obtain ⟨lexeme, rfl, sign⟩ := List.map_eq_singleton_iff.mp signs
  have kind : lexeme.kind = word.kind := congrArg Prod.fst sign
  have effect : start.effect lexeme contents = .ok contents :=
    Phase.effect_of_other (unselected lexeme) (kind ▸ other)
  have step : Reading.step ⟨contents, start⟩ lexeme = .ok ⟨contents, finish⟩ :=
    Reading.step_eq_ok_iff.mpr ⟨leads lexeme kind, effect⟩
  exact ⟨contents, Reading.run_cons_of_step step, by simp, by simp⟩

/-- A path adds the library that it names. -/
theorem path {start finish : Phase} {needed : Bool} (name : Path)
    (leads : ∀ lexeme : Lexeme, lexeme.kind = .literal → start.next lexeme = some finish)
    (names : ∀ lexeme : Lexeme, lexeme.kind = .literal → start.needed? lexeme = some needed)
    (unselected : ∀ lexeme, start.selected? lexeme = none := by exact fun _ => rfl) :
    Reads start finish [Word.sign (.path name)] none [(name.text, needed)] := by
  intro lexemes contents signs
  obtain ⟨lexeme, rfl, sign⟩ := List.map_eq_singleton_iff.mp signs
  obtain ⟨kind, text⟩ := Prod.mk.inj sign
  have effect : start.effect lexeme contents = .ok (contents.add lexeme needed) :=
    Phase.effect_of_needed (unselected lexeme) (names lexeme kind)
  have step : Reading.step ⟨contents, start⟩ lexeme = .ok ⟨contents.add lexeme needed, finish⟩ :=
    Reading.step_eq_ok_iff.mpr ⟨leads lexeme kind, effect⟩
  refine ⟨contents.add lexeme needed, Reading.run_cons_of_step step, ?_, ?_⟩
  · simp [Contents.add]
  · simp [Contents.libraries, Contents.add, Lexeme.entry, text, Word.text]

/-- A list of libraries adds each of them as not needed. -/
theorem names (paths : List Path) :
    Reads .names .names (paths.map (Word.sign ∘ .path)) none
      (paths.map fun path => (path.text, false)) := by
  induction paths with
  | nil => exact nil _
  | cons path rest ih =>
    have here : Reads .names .names [Word.sign (.path path)] none [(path.text, false)] :=
      Reads.path path (fun _ kind => by simp [Phase.next, kind])
        (fun _ kind => by simp [Phase.needed?, kind])
    exact here.append ih

/-- A member adds its libraries. -/
theorem item (item : Item) :
    Reads .items .items (item.words.map Word.sign) none item.libraries := by
  cases item with
  | path name =>
    exact path name (fun _ kind => by simp [Phase.next, kind])
      (fun _ kind => by simp [Phase.needed?, kind])
  | asNeeded list =>
    have keyword : Reads .items .asNeeded [Word.sign (.keyword .asNeeded)] none [] :=
      word (.keyword .asNeeded) fun _ kind => by simp [Phase.next, Word.kind, kind]
    have opens : Reads .asNeeded .names [Word.sign .lparen] none [] :=
      word .lparen fun _ kind => by simp [Phase.next, Word.kind, kind]
    have closes : Reads .names .items [Word.sign .rparen] none [] :=
      word .rparen fun _ kind => by simp [Phase.next, Word.kind, kind]
    have whole := keyword.append (opens.append ((names list).append closes))
    simpa [Item.words, Item.libraries] using whole

/-- The members of a group add their libraries. -/
theorem items (members : List Item) :
    Reads .items .items ((members.flatMap Item.words).map Word.sign) none
      (members.flatMap Item.libraries) := by
  induction members with
  | nil => exact nil _
  | cons member rest ih =>
    rw [List.flatMap_cons, List.flatMap_cons, List.map_append]
    exact (item member).append ih

/-- A format that is closed selects its architecture. -/
theorem operand (arch : CpuArch) :
    Reads .formatOpen .top [Word.sign (.path (formatPath arch)), Word.sign .rparen] (some arch)
      [] := by
  intro lexemes contents signs
  obtain ⟨format, closing, rfl, sign, rest⟩ := List.map_eq_cons_iff.mp signs
  obtain ⟨close, rfl, sign'⟩ := List.map_eq_singleton_iff.mp rest
  obtain ⟨kind, text⟩ := Prod.mk.inj sign
  obtain ⟨kind', -⟩ := Prod.mk.inj sign'
  simp only [Word.kind] at kind kind'
  have reads : Reading.step ⟨contents, .formatOpen⟩ format = .ok ⟨contents, .formatRead format⟩ :=
    Reading.step_eq_ok_iff.mpr ⟨by simp [Phase.next, kind], rfl⟩
  have selects : contents.select format = .ok { contents with cpuArch := some arch } := by
    have known : CpuArch.ofOutputFormat? format.text = some arch := by
      rw [text]
      exact CpuArch.ofOutputFormat?_outputFormat arch
    simp only [Contents.select, known]
  have closes : Reading.step ⟨contents, .formatRead format⟩ close =
      .ok ⟨{ contents with cpuArch := some arch }, .top⟩ :=
    Reading.step_eq_ok_iff.mpr ⟨by simp [Phase.next, kind'],
      (Phase.effect_of_selected rfl).trans selects⟩
  refine ⟨{ contents with cpuArch := some arch }, ?_, rfl, by simp [Contents.libraries]⟩
  rw [Reading.run_cons_of_step reads, Reading.run_cons_of_step closes, Reading.run_nil]

/-- The words between the parentheses of a group add the libraries of its members. -/
theorem group (members : List Item) :
    Reads .group .top
      ((.lparen :: members.flatMap Item.words ++ [.rparen] : List Word).map Word.sign) none
      (members.flatMap Item.libraries) := by
  have opens : Reads .group .items [Word.sign .lparen] none [] :=
    word .lparen fun _ kind => by simp [Phase.next, Word.kind, kind]
  have closes : Reads .items .top [Word.sign .rparen] none [] :=
    word .rparen fun _ kind => by simp [Phase.next, Word.kind, kind]
  simpa using opens.append ((items members).append closes)

/-- **The words of a directive add what it stands for.** -/
theorem directive {directive : Directive} {words : List Word} (h : Words directive words) :
    Reads .top .top (words.map Word.sign) directive.arch? directive.libraries := by
  cases h with
  | format arch =>
    have keyword : Reads .top .format [Word.sign (.keyword .outputFormat)] none [] :=
      word (.keyword .outputFormat) fun _ kind => by simp [Phase.next, Word.kind, kind]
    have opens : Reads .format .formatOpen [Word.sign .lparen] none [] :=
      word .lparen fun _ kind => by simp [Phase.next, Word.kind, kind]
    exact keyword.append (opens.append (operand arch))
  | input members =>
    have keyword : Reads .top .group [Word.sign (.keyword .input)] none [] :=
      word (.keyword .input) fun _ kind => by simp [Phase.next, Word.kind, kind]
    exact keyword.append (group members)
  | group members =>
    have keyword : Reads .top .group [Word.sign (.keyword .group)] none [] :=
      word (.keyword .group) fun _ kind => by simp [Phase.next, Word.kind, kind]
    exact keyword.append (group members)

end Reads

/-! ## From bytes to contents -/

/-- A run over nothing but the end comes to the end. -/
theorem run_scanFrom_nil (mark : Mark) (contents : Contents) :
    Reading.run ⟨contents, .top⟩ (scanFrom mark []) = .ok ⟨contents, .done⟩ := by
  obtain ⟨lexeme, scan, kind⟩ := scanFrom_nil mark
  rw [scan]
  exact Reading.run_cons_of_step (Reading.step_eq_ok_iff.mpr ⟨by simp [Phase.next, kind], rfl⟩)

/-- A run over a line adds what its directive stands for, and goes on behind the line. -/
theorem run_scanFrom_line {directive : Directive} {words : List Word} {line : String}
    (isWords : Words directive words) (isLine : Line words line) (mark : Mark)
    (contents : Contents) {rest : Bytes} (stops : Stops rest) :
    ∃ (between : Contents) (after : Mark),
      Reading.run ⟨contents, .top⟩ (scanFrom mark (encode line ++ rest)) =
        Reading.run ⟨between, .top⟩ (scanFrom after rest) ∧
      between.cpuArch = directive.arch?.or contents.cpuArch ∧
      between.libraries = contents.libraries ++ directive.libraries := by
  obtain ⟨front, after, scan, signs⟩ := isLine.scanFrom_eq mark [] (by simp) stops
  obtain ⟨between, run, arch, libs⟩ := Reads.directive isWords front contents signs
  refine ⟨between, after, ?_, arch, libs⟩
  rw [List.nil_append] at scan
  rw [scan, Reading.run_append, run]
  rfl

/-- **A run over a written text** comes to the end and adds what the directives stand for. -/
theorem Lines.run_scanFrom {directives : List Directive} {text : String}
    (h : Lines directives text) (mark : Mark) (contents : Contents) :
    ∃ after : Contents,
      Reading.run ⟨contents, .top⟩ (scanFrom mark (encode text)) = .ok ⟨after, .done⟩ ∧
      after.cpuArch = (directives.filterMap Directive.arch?).getLast?.or contents.cpuArch ∧
      after.libraries = contents.libraries ++ directives.flatMap Directive.libraries := by
  induction h generalizing mark contents with
  | nil => exact ⟨contents, run_scanFrom_nil mark contents, by simp, by simp⟩
  | @last directive words line isWords isLine =>
    obtain ⟨between, after, run, arch, libs⟩ :=
      run_scanFrom_line isWords isLine mark contents stops_nil
    rw [List.append_nil] at run
    refine ⟨between, ?_, ?_, ?_⟩
    · rw [run, run_scanFrom_nil]
    · rw [arch]
      cases directive <;> rfl
    · rw [libs, List.flatMap_singleton]
  | @cons directive words line lineBreak text directives isWords isLine isBreak _ ih =>
    obtain ⟨between, middle, run, arch, libs⟩ := run_scanFrom_line isWords isLine mark contents
      (stops_lineBreak isBreak (encode text))
    obtain ⟨newline, behind, scan, kind⟩ := scanFrom_lineBreak isBreak middle (encode text)
    have step : Reading.step ⟨between, .top⟩ newline = .ok ⟨between, .top⟩ :=
      Reading.step_eq_ok_iff.mpr ⟨by simp [Phase.next, kind], rfl⟩
    obtain ⟨after, run', arch', libs'⟩ := ih behind between
    refine ⟨after, ?_, ?_, ?_⟩
    · rw [encode_append, encode_append, List.append_assoc, run, scan,
        Reading.run_cons_of_step step, run']
    · rw [arch', arch, List.filterMap_cons]
      cases directive.arch? with
      | none => simp
      | some selected =>
        rw [List.getLast?_cons]
        cases (directives.filterMap Directive.arch?).getLast? <;> simp
    · rw [libs', libs, List.append_assoc, List.flatMap_cons]

/-- **A script that is written reads back.**  The text of a list of directives, in any of the ways
to write it, is accepted; the architecture is that of the last format, and the libraries are those
of the groups in order, needed exactly outside of `AS_NEEDED`. -/
theorem parse_lines {directives : List Directive} {text : String}
    (written : Lines directives text) :
    ∃ contents, parse (encode text) = .ok contents ∧
      contents.cpuArch = (directives.filterMap Directive.arch?).getLast? ∧
      contents.libraries = directives.flatMap Directive.libraries := by
  obtain ⟨after, run, arch, libs⟩ := written.run_scanFrom Mark.origin {}
  refine ⟨after, parse_of_run run, ?_, libs⟩
  rw [arch, Option.or_none]

/-- A library name with a tab, a brace and a comment mark inside. -/
def oddPath : Path where
  text := "é\t\x7b/*"
  plain := by decide +kernel
  not_keyword := by
    intro keyword
    cases keyword <;> decide

/-- A script with a format, and a group of one needed library and one that is not. -/
def script : List Directive :=
  [.format .aarch64, .group [.path oddPath, .asNeeded [oddPath]]]

/-- One way to write the script. -/
def scriptText : String :=
  "OUTPUT_FORMAT ( \t elf64-littleaarch64 )\nINPUT ( é\t\x7b/* AS_NEEDED ( é\t\x7b/* ) )"

/-- A single space is a gap. -/
theorem gap_space : Gap " " :=
  ⟨[], rfl, by simp⟩

/-- The written script reads back. -/
theorem parse_lines_script : Lines script scriptText ∧
    ∃ contents, parse (encode scriptText) = .ok contents ∧
      contents.cpuArch = some .aarch64 ∧
      contents.libraries = [("é\t\x7b/*", true), ("é\t\x7b/*", false)] := by
  have wide : Gap " \t " := ⟨['\t', ' '], rfl, by simp⟩
  have format := Line.more (.keyword .outputFormat) gap_space <| .more .lparen wide <|
    .more (.path (formatPath .aarch64)) gap_space <| .last .rparen
  have group := Line.more (.keyword .input) gap_space <| .more .lparen gap_space <|
    .more (.path oddPath) gap_space <| .more (.keyword .asNeeded) gap_space <|
    .more .lparen gap_space <| .more (.path oddPath) gap_space <| .more .rparen gap_space <|
    .last .rparen
  have written : Lines script scriptText :=
    Lines.cons (.format .aarch64) format (.inl rfl)
      (.last (.input [.path oddPath, .asNeeded [oddPath]]) group)
  exact ⟨written, parse_lines written⟩

end Written

end LinkScript
