import LinkScript.Script
import LinkScript.Script.Navigation
import LinkScript.Token.Scan

/-!
# Reading a script

A recursive descent parser for the grammar

    script        = { comment | newline | directive } eof
    directive     = OUTPUT_FORMAT output-format | (INPUT | GROUP) group
    output-format = "(" literal ")" | newline "{" literal [newline] "}"
    group         = "(" { literal | AS_NEEDED as-needed } ")"
    as-needed     = "(" { literal } ")"

`Progress` is a run that has come to some place: what it has read so far and where it stands.
Every production is a function from progress to progress that fails with the lexeme to blame.
`parse` runs the grammar over a whole source.

A `Parser` may be used for one script after another; each run begins with fresh contents and a new
list of entries.
-/

namespace LinkScript

/-- What a run has read, and where it stands. -/
structure Progress where
  place : Place
  cpuArch : Option CpuArch := none
  entries : Array Entry := #[]
  deriving Repr, DecidableEq

namespace Progress

/-- The progress with the cursor moved. -/
def movedTo (progress : Progress) (place : Place) : Progress := { progress with place }

/-- The progress behind a lexeme that names a library. -/
def add (progress : Progress) (lexeme : Lexeme) (needed : Bool) (after : Place) : Progress :=
  { progress with
    place := after
    entries := progress.entries.push ⟨lexeme.text, needed, lexeme.span⟩ }

/-- What has been read. -/
def contents (progress : Progress) : Contents := ⟨progress.cpuArch, progress.entries.toList⟩

/-! ## The productions -/

/-- The library names of an `AS_NEEDED` list, as far as they go. -/
def asNeededItems (progress : Progress) : Progress :=
  match _h : progress.place.maybe .literal with
  | (some lexeme, after) => asNeededItems (progress.add lexeme false after)
  | (none, after) => progress.movedTo after
termination_by progress.place.remaining
decreasing_by exact Place.maybe_remaining_lt _h

/-- An `AS_NEEDED` list, behind its keyword. -/
def asNeeded (progress : Progress) : Except ParseFault Progress :=
  match progress.place.skip [.lparen] with
  | (false, here) => .error (here.unexpected here.pos)
  | (true, after) =>
    let items := asNeededItems (progress.movedTo after)
    match items.place.require .rparen with
    | .error fault => .error fault
    | .ok (_, after) => .ok (items.movedTo after)

/-- No more lexemes remain behind the libraries in `AS_NEEDED`. -/
theorem asNeededItems_remaining_le (progress : Progress) :
    progress.asNeededItems.place.remaining ≤ progress.place.remaining := by
  fun_induction asNeededItems progress with
  | case1 progress lexeme after h ih =>
    exact Nat.le_trans ih (Nat.le_of_lt (Place.maybe_remaining_lt h))
  | case2 progress after h =>
    rw [Place.maybe_eq_none h]
    exact Nat.le_refl _

/-- No more lexemes remain behind a whole `AS_NEEDED`. -/
theorem asNeeded_remaining_le {progress after : Progress} (h : progress.asNeeded = .ok after) :
    after.place.remaining ≤ progress.place.remaining := by
  unfold asNeeded at h
  split at h
  · cases h
  · next opened heq =>
    dsimp only at h
    split at h
    · cases h
    · next closed hclosed =>
      cases h
      have step := Place.skip_remaining_le progress.place [.lparen]
      rw [heq] at step
      have inside := asNeededItems_remaining_le (progress.movedTo opened)
      have close := Place.require_remaining_lt hclosed
      exact Nat.le_trans (Nat.le_of_lt close) (Nat.le_trans inside step)

/-- The items of a group, as far as they go. -/
def groupItems (progress : Progress) : Except ParseFault Progress :=
  match _h : progress.place.maybe .literal with
  | (some lexeme, after) => groupItems (progress.add lexeme true after)
  | (none, here) =>
    match _hc : here.maybeCommand with
    | (none, here) => .ok (progress.movedTo here)
    | (some keyword, after) =>
      if keyword = .asNeeded then
        match _ha : (progress.movedTo after).asNeeded with
        | .error fault => .error fault
        | .ok inner => groupItems inner
      else .error (here.unexpected here.save)
termination_by progress.place.remaining
decreasing_by
  · exact Place.maybe_remaining_lt _h
  · have inner := asNeeded_remaining_le _ha
    have keyword := Place.maybeCommand_remaining_lt _hc
    rw [Place.maybe_eq_none _h] at keyword
    exact Nat.lt_of_le_of_lt inner keyword

/-- The group of an `INPUT` or `GROUP` directive, behind its keyword. -/
def group (progress : Progress) : Except ParseFault Progress :=
  match progress.place.skip [.lparen] with
  | (false, here) => .error (here.unexpected here.pos)
  | (true, after) =>
    match groupItems (progress.movedTo after) with
    | .error fault => .error fault
    | .ok items =>
      match items.place.require .rparen with
      | .error fault => .error fault
      | .ok (_, after) => .ok (items.movedTo after)

/-- The operand of an `OUTPUT_FORMAT` directive, in either of its two forms, and the place behind
its closing bracket. -/
def formatOperand (place : Place) : Except ParseFault (Lexeme × Place) :=
  match place.skip [.lparen] with
  | (true, after) => do
    let (operand, after) ← after.require .literal
    let (_, after) ← after.require .rparen
    return (operand, after)
  | (false, here) =>
    match here.skip [.newline, .lbrace] with
    | (true, after) => do
      let (operand, after) ← after.require .literal
      let (_, after) ← (after.skip [.newline]).2.require .rbrace
      return (operand, after)
    | (false, here) => .error (here.unexpected here.pos)

/-- The architecture that a format operand names. -/
def archOf (operand : Lexeme) : Except ParseFault CpuArch :=
  match CpuArch.ofOutputFormat? operand.text with
  | some arch => .ok arch
  | none => .error (.link ⟨.unknownCpuArch operand.text, operand.position⟩)

/-- The rest of an `OUTPUT_FORMAT` directive, behind its keyword. -/
def outputFormat (progress : Progress) : Except ParseFault Progress := do
  let (operand, after) ← formatOperand progress.place
  let arch ← archOf operand
  return { progress with place := after, cpuArch := some arch }

/-- The rest of a directive, behind its keyword, which stands at `keywordAt`. -/
def directive (progress : Progress) (keywordAt : Place) : Command → Except ParseFault Progress
  | .outputFormat => progress.outputFormat
  | .input | .group => progress.group
  | .asNeeded => .error (keywordAt.unexpected keywordAt.save)

/-! ## Every production moves forward -/

/-- No more lexemes remain behind the inside of a group. -/
theorem groupItems_remaining_le {progress after : Progress} (h : progress.groupItems = .ok after) :
    after.place.remaining ≤ progress.place.remaining := by
  fun_induction groupItems progress with
  | case1 progress lexeme next hm ih =>
    exact Nat.le_trans (ih h) (Nat.le_of_lt (Place.maybe_remaining_lt hm))
  | case2 progress here hm there hc =>
    cases h
    rw [Place.maybeCommand_eq_none hc, Place.maybe_eq_none hm]
    exact Nat.le_refl _
  | case3 => cases h
  | case4 progress here hm next inner ha hc ih =>
    have keyword := Place.maybeCommand_remaining_lt hc
    rw [Place.maybe_eq_none hm] at keyword
    exact Nat.le_trans (ih h) (Nat.le_trans (asNeeded_remaining_le ha) (Nat.le_of_lt keyword))
  | case5 => cases h

/-- No more lexemes remain behind a group. -/
theorem group_remaining_le {progress after : Progress} (h : progress.group = .ok after) :
    after.place.remaining ≤ progress.place.remaining := by
  unfold group at h
  split at h
  · cases h
  · next opened heq =>
    split at h
    · cases h
    · next items hitems =>
      split at h
      · cases h
      · next closed hclosed =>
        cases h
        have step := Place.skip_remaining_le progress.place [.lparen]
        rw [heq] at step
        have inside := groupItems_remaining_le hitems
        have close := Place.require_remaining_lt hclosed
        exact Nat.le_trans (Nat.le_of_lt close) (Nat.le_trans inside step)

/-- No more lexemes remain behind the operand of a format. -/
theorem formatOperand_remaining_le {place after : Place} {operand : Lexeme}
    (h : formatOperand place = .ok (operand, after)) : after.remaining ≤ place.remaining := by
  have first := Place.skip_remaining_le place [.lparen]
  unfold formatOperand at h
  split at h
  · next opened heq =>
    rw [heq] at first
    simp only [bind, Except.bind, pure, Except.pure] at h
    split at h
    · cases h
    · next pair hliteral =>
      split at h
      · cases h
      · next closed hclosed =>
        cases h
        exact Nat.le_trans (Nat.le_of_lt (Place.require_remaining_lt hclosed))
          (Nat.le_trans (Nat.le_of_lt (Place.require_remaining_lt hliteral)) first)
  · next here heq =>
    rw [heq] at first
    have second := Place.skip_remaining_le here [.newline, .lbrace]
    split at h
    · next opened heq =>
      rw [heq] at second
      simp only [bind, Except.bind, pure, Except.pure] at h
      split at h
      · cases h
      · next pair hliteral =>
        split at h
        · cases h
        · next closed hclosed =>
          cases h
          exact Nat.le_trans (Nat.le_of_lt (Place.require_remaining_lt hclosed))
            (Nat.le_trans (Place.skip_remaining_le _ _)
              (Nat.le_trans (Nat.le_of_lt (Place.require_remaining_lt hliteral))
                (Nat.le_trans second first)))
    · cases h

/-- No more lexemes remain behind a format. -/
theorem outputFormat_remaining_le {progress after : Progress}
    (h : progress.outputFormat = .ok after) :
    after.place.remaining ≤ progress.place.remaining := by
  simp only [outputFormat, bind, Except.bind, pure, Except.pure] at h
  split at h
  · cases h
  · next pair hoperand =>
    split at h
    · cases h
    · cases h
      exact formatOperand_remaining_le hoperand

/-- No more lexemes remain behind a directive. -/
theorem directive_remaining_le {progress after : Progress} {keywordAt : Place}
    {keyword : Command} (h : progress.directive keywordAt keyword = .ok after) :
    after.place.remaining ≤ progress.place.remaining := by
  cases keyword with
  | outputFormat => exact outputFormat_remaining_le h
  | input => exact group_remaining_le h
  | group => exact group_remaining_le h
  | asNeeded => cases h

/-! ## The whole script -/

/-- The directives of a script, as far as they go, with the comments and newlines around them. -/
def directives (progress : Progress) : Except ParseFault Progress :=
  let here := progress.place.skipAny [.comment, .newline]
  match _hc : here.maybeCommand with
  | (none, here) => .ok (progress.movedTo here)
  | (some keyword, after) =>
    match _hd : (progress.movedTo after).directive here keyword with
    | .error fault => .error fault
    | .ok behind => directives behind
termination_by progress.place.remaining
decreasing_by
  exact Nat.lt_of_le_of_lt (directive_remaining_le _hd)
    (Nat.lt_of_lt_of_le (Place.maybeCommand_remaining_lt _hc) (Place.skipAny_remaining_le _ _))

/-- A script through its end. -/
def script (progress : Progress) : Except ParseFault Progress :=
  match progress.directives with
  | .error fault => .error fault
  | .ok behind =>
    match behind.place.next with
    | (some lexeme, after) =>
      if lexeme.type = .eof then .ok (behind.movedTo after)
      else .error (behind.place.unexpected behind.place.pos)
    | (none, _) => .error (behind.place.unexpected behind.place.pos)

end Progress

/-- The contents of a script given by its lexemes. -/
def parseLexemes (lexemes : List Lexeme) : Except ParseFault Contents :=
  (Progress.script { place := { items := lexemes.toArray } }).map Progress.contents

/-- The contents of a script given by its source. -/
def parse (source : Bytes) : Except ParseFault Contents :=
  match tokenize source with
  | .error failure => .error (.link failure)
  | .ok lexemes => parseLexemes lexemes

/-! ## Reading one script after another

The entries of a run are handed out in the list that the parser filled, and not in a copy of it.  So
a parser comes with all the lists that it has made, and what was handed out is looked at where it
lies, whatever has been done since. -/

/-- What a run hands out: the architecture, and which list of the parser holds the entries. -/
structure Parser.Output where
  cpuArch : Option CpuArch
  list : Nat
  deriving Repr, DecidableEq

/-- A parser: where it stands, the architecture that it has read, the lists that it has made, and
which of these it fills. -/
structure Parser where
  place : Place := { items := #[] }
  cpuArch : Option CpuArch := none
  lists : Array (Array Entry) := #[#[]]
  own : Nat := 0
  deriving Repr, DecidableEq

namespace Parser

/-- The contents that an output shows, with its list as it now is. -/
def look (parser : Parser) (output : Output) : Contents :=
  ⟨output.cpuArch, (parser.lists.getD output.list #[]).toList⟩

/-- The parser as the progress of a run. -/
def progress (parser : Parser) : Progress :=
  ⟨parser.place, parser.cpuArch, parser.lists.getD parser.own #[]⟩

/-- The parser with a run come to some progress: the entries are in its own list. -/
def comeTo (parser : Parser) (progress : Progress) : Parser :=
  { parser with
    place := progress.place
    cpuArch := progress.cpuArch
    lists := parser.lists.setIfInBounds parser.own progress.entries }

/-- The parser at the beginning of a script, with a new list of its own. -/
def start (parser : Parser) (lexemes : List Lexeme) : Parser where
  place := { items := lexemes.toArray }
  cpuArch := none
  lists := parser.lists.push #[]
  own := parser.lists.size

/-- One run.  A source that does not tokenize leaves the parser as it was.  Of a run that fails
otherwise no more is kept than that it has begun. -/
def read (parser : Parser) (source : Bytes) : Except ParseFault Output × Parser :=
  match tokenize source with
  | .error failure => (.error (.link failure), parser)
  | .ok lexemes =>
    let begun := parser.start lexemes
    match begun.progress.script with
    | .error fault => (.error fault, begun)
    | .ok finish => (.ok ⟨finish.cpuArch, begun.own⟩, begun.comeTo finish)

/-- One run after another: what is handed out, and the parser in the end. -/
def readEach (parser : Parser) : List Bytes → List (Except ParseFault Output) × Parser
  | [] => ([], parser)
  | source :: sources =>
    let (outcome, after) := parser.read source
    let (outcomes, last) := after.readEach sources
    (outcome :: outcomes, last)

/-- The outcomes of one run after another, looked at when all of them are over. -/
def readAll (parser : Parser) (sources : List Bytes) : List (Except ParseFault Contents) :=
  let (outcomes, last) := parser.readEach sources
  outcomes.map (·.map last.look)

end Parser

end LinkScript
