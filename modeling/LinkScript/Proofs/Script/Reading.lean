import LinkScript.Proofs.Script.Phase
import LinkScript.Proofs.Token.Coverage

/-!
# The parser reads lexeme by lexeme

Every production of `Script/Parser` does to the lexemes ahead what a run of `Proofs/Script/Phase`
does to them.

* `Progress.resume` continues a progress from some phase by a run over the lexemes ahead.
* `Progress.Tracks` relates a progress to the outcome of a production: where the production
  succeeds, the run goes on behind it as before, in the phase the production ends in; where it
  fails, the run fails with the same failure.
* There is one tracking lemma for each production, and `parseLexemes_eq_run` for a whole script.

A list of lexemes that ends in `eof` never lets a production look past its end, so no production
asks for a lexeme that does not exist.
-/

namespace LinkScript

/-! ## The moves over lexemes that end -/

namespace Place

variable {place : Place}

/-- One lexeme is skipped, or it is of another kind. -/
theorem skip_one_cases (ended : Ended place.ahead) (type : TokenType) (kind : TokenKind)
    (named : kind.type = type := by rfl) (plain : kind.type ≠ .command := by decide)
    (inner : kind ≠ .eof := by decide) :
    (∃ lexeme after, place.skip [type] = (true, after) ∧
      place.ahead = lexeme :: after.ahead ∧ lexeme.kind = kind ∧ Ended after.ahead) ∨
    ∃ lexeme rest, place.skip [type] = (false, place) ∧
      place.ahead = lexeme :: rest ∧ lexeme.kind ≠ kind := by
  obtain ⟨lexeme, rest, ahead⟩ := ended.exists_cons
  rw [ahead] at ended
  have same := lexeme.type_eq_iff kind plain
  rw [named] at same
  by_cases fits : lexeme.kind = kind
  · refine Or.inl ⟨lexeme, place.advance 1, ?_, by simp [ahead], fits, ?_⟩
    · simp [skip_eq, ahead, same.mpr fits]
    · simpa [ahead] using ended.tail (fits ▸ inner)
  · refine Or.inr ⟨lexeme, rest, ?_, ahead, fits⟩
    simp [skip_eq, ahead, Ne.symm (mt same.mp fits)]

/-- The lines that open a block are skipped, or they are missing: there is no newline, or no brace
behind it. -/
theorem skip_block_cases (ended : Ended place.ahead) :
    (∃ newline brace after, place.skip [.newline, .lbrace] = (true, after) ∧
      place.ahead = newline :: brace :: after.ahead ∧ newline.kind = .newline ∧
      brace.kind = .lbrace ∧ Ended after.ahead) ∨
    ∃ first rest, place.skip [.newline, .lbrace] = (false, place) ∧ place.ahead = first :: rest ∧
      (first.kind ≠ .newline ∨ first.kind = .newline ∧
        ∃ second others, rest = second :: others ∧ second.kind ≠ .lbrace) := by
  obtain ⟨first, rest, ahead⟩ := ended.exists_cons
  rw [ahead] at ended
  have isNewline := first.type_eq_iff .newline (by decide)
  by_cases newline : first.kind = .newline
  · obtain ⟨second, others, rfl⟩ := (ended.tail (by simp [newline])).exists_cons
    have isBrace := second.type_eq_iff .lbrace (by decide)
    by_cases brace : second.kind = .lbrace
    · refine Or.inl ⟨first, second, place.advance 2, ?_, by simp [ahead], newline, brace, ?_⟩
      · have fits : first.type = .newline ∧ second.type = .lbrace :=
          ⟨isNewline.mpr newline, isBrace.mpr brace⟩
        simp [skip_eq, ahead, fits]
      · simpa [ahead] using (ended.tail (by simp [newline])).tail (by simp [brace])
    · refine Or.inr ⟨first, second :: others, ?_, ahead,
        Or.inr ⟨newline, second, others, rfl, brace⟩⟩
      have misfit : second.type ≠ .lbrace := mt isBrace.mp brace
      simp [skip_eq, ahead, Ne.symm misfit]
  · refine Or.inr ⟨first, rest, ?_, ahead, Or.inl newline⟩
    have misfit : first.type ≠ .newline := mt isNewline.mp newline
    simp [skip_eq, ahead, Ne.symm misfit]

/-- One lexeme is required and taken, or it is of another kind and blamed. -/
theorem require_cases (ended : Ended place.ahead) (type : TokenType) (kind : TokenKind)
    (named : kind.type = type := by rfl) (plain : kind.type ≠ .command := by decide)
    (inner : kind ≠ .eof := by decide) :
    (∃ lexeme after, place.require type = .ok (lexeme, after) ∧
      place.ahead = lexeme :: after.ahead ∧ lexeme.kind = kind ∧ Ended after.ahead) ∨
    ∃ lexeme rest, place.require type = .error (.link lexeme.unexpected) ∧
      place.ahead = lexeme :: rest ∧ lexeme.kind ≠ kind := by
  obtain ⟨lexeme, rest, ahead⟩ := ended.exists_cons
  rw [ahead] at ended
  have same := lexeme.type_eq_iff kind plain
  rw [named] at same
  by_cases fits : lexeme.kind = kind
  · refine Or.inl ⟨lexeme, place.advance 1, ?_, by simp [ahead], fits, ?_⟩
    · rw [require_of_ahead_cons ahead, if_pos (same.mpr fits)]
    · simpa [ahead] using ended.tail (fits ▸ inner)
  · refine Or.inr ⟨lexeme, rest, ?_, ahead, fits⟩
    rw [require_of_ahead_cons ahead, if_neg (mt same.mp fits)]

end Place

namespace Progress

/-! ## What it means for a production to keep up with a run -/

/-- The progress as a reading in some phase. -/
def reading (progress : Progress) (phase : Phase) : Reading :=
  { toContents := progress.contents, phase := phase }

/-- The outcome of the run that goes on from a progress over the lexemes ahead. -/
def resume (progress : Progress) (phase : Phase) : Except LinkFailure Reading :=
  (progress.reading phase).run progress.place.ahead

/-- A production that begins in one phase and ends in another does what the run does. -/
inductive Tracks (progress : Progress) (start finish : Phase) :
    Except ParseFault Progress → Prop where
  | ok {after : Progress} : Ended after.place.ahead →
      progress.resume start = after.resume finish → Tracks progress start finish (.ok after)
  | error {failure : LinkFailure} :
      progress.resume start = .error failure → Tracks progress start finish (.error (.link failure))

namespace Tracks

variable {progress middle : Progress} {start inner finish : Phase} {lexeme : Lexeme}
  {rest : List Lexeme} {outcome : Except ParseFault Progress}

/-- A production that does nothing stays in its phase. -/
theorem refl (ended : Ended progress.place.ahead) :
    Tracks progress start start (.ok progress) :=
  Tracks.ok ended rfl

/-- What keeps up with the run behind some progress keeps up with it from the start. -/
theorem of_resume (h : progress.resume start = middle.resume inner)
    (tracks : Tracks middle inner finish outcome) : Tracks progress start finish outcome := by
  cases tracks with
  | ok ended same => exact Tracks.ok ended (h.trans same)
  | error same => exact Tracks.error (h.trans same)

/-- Where no phase follows the first lexeme ahead, the one to blame is blamed. -/
theorem blame (ahead : progress.place.ahead = lexeme :: rest) (stop : start.next lexeme = none) :
    Tracks progress start finish (.error (.link (start.blamed lexeme).unexpected)) := by
  apply Tracks.error
  rw [resume, ahead]
  exact Reading.run_cons_of_error (Reading.step_of_next_none stop)

end Tracks

section steps

variable {progress : Progress} {after : Place} {lexeme : Lexeme} {phase following : Phase}

/-- A step that adds nothing only moves the place. -/
theorem resume_of_next (ahead : progress.place.ahead = lexeme :: after.ahead)
    (next : phase.next lexeme = some following)
    (effect : phase.effect lexeme progress.contents = .ok progress.contents) :
    progress.resume phase = (progress.movedTo after).resume following := by
  rw [resume, ahead]
  exact Reading.run_cons_of_step (Reading.step_eq_ok_iff.mpr ⟨next, effect⟩)

/-- A step over a library name adds it. -/
theorem resume_of_add (ahead : progress.place.ahead = lexeme :: after.ahead) {needed : Bool}
    (next : phase.next lexeme = some following)
    (effect : phase.effect lexeme progress.contents = .ok (progress.contents.add lexeme needed)) :
    progress.resume phase = (progress.add lexeme needed after).resume following := by
  have added : (progress.add lexeme needed after).contents =
      progress.contents.add lexeme needed := by
    simp [add, contents, Contents.add, Lexeme.entry]
  rw [resume, ahead]
  refine Reading.run_cons_of_step (Reading.step_eq_ok_iff.mpr ⟨next, ?_⟩)
  rw [reading, reading, effect, added]

end steps

/-! ## Groups -/

/-- The names of an `AS_NEEDED` list are taken as far as they go. -/
theorem asNeededItems_tracks (progress : Progress) (ended : Ended progress.place.ahead) :
    Tracks progress .names .names (.ok progress.asNeededItems) ∧
      ∀ lexeme rest, progress.asNeededItems.place.ahead = lexeme :: rest →
        lexeme.kind ≠ .literal := by
  fun_induction asNeededItems progress with
  | case1 progress lexeme after found ih =>
    obtain ⟨ahead, type⟩ := Place.ahead_of_maybe_some found
    have kind := (lexeme.type_eq_iff .literal (by decide)).mp type
    rw [ahead] at ended
    obtain ⟨tracks, stop⟩ := ih (ended.tail (by simp [kind]))
    refine ⟨Tracks.of_resume ?_ tracks, stop⟩
    have next : Phase.names.next lexeme = some .names := by simp [Phase.next, kind]
    exact resume_of_add ahead next (Phase.effect_of_needed rfl (by simp [Phase.needed?, kind]))
  | case2 progress after found =>
    rw [Place.maybe_eq_none found]
    refine ⟨Tracks.refl ended, ?_⟩
    intro lexeme rest ahead kind
    exact Place.ahead_of_maybe_none found ahead ((lexeme.type_eq_iff .literal (by decide)).mpr kind)

/-- An `AS_NEEDED` list is read behind its keyword and leads back into the group. -/
theorem asNeeded_tracks (progress : Progress) (ended : Ended progress.place.ahead) :
    Tracks progress .asNeeded .items progress.asNeeded := by
  unfold asNeeded
  rcases Place.skip_one_cases ended .lparen .lparen with
    ⟨lexeme, opened, skip, ahead, kind, ended⟩ | ⟨lexeme, rest, skip, ahead, kind⟩
  · have next : Phase.asNeeded.next lexeme = some .names := by simp [Phase.next, kind]
    apply Tracks.of_resume (resume_of_next ahead next rfl)
    obtain ⟨inside, stop⟩ := asNeededItems_tracks (progress.movedTo opened) ended
    cases inside with
    | ok ended same =>
      apply Tracks.of_resume same
      rcases Place.require_cases ended .rparen .rparen with
        ⟨last, closed, require, ahead, kind, ended⟩ | ⟨last, rest, require, ahead, kind⟩
      · have next : Phase.names.next last = some .items := by simp [Phase.next, kind]
        have close := resume_of_next ahead next (Phase.effect_of_other rfl (by simp [kind]))
        simp only [skip, require]
        exact Tracks.of_resume close (Tracks.refl ended)
      · have literal := stop last rest ahead
        have next : Phase.names.next last = none := by
          unfold Phase.next
          split <;> simp_all
        simp only [skip, require]
        exact Tracks.blame ahead next
  · have next : Phase.asNeeded.next lexeme = none := by simp [Phase.next, kind]
    simp only [skip, Place.unexpected_of_ahead_cons ahead]
    exact Tracks.blame ahead next

/-- An `AS_NEEDED` list is read from its keyword on, which stands inside a group. -/
theorem asNeeded_tracks_of_keyword {progress : Progress} {after : Place}
    (ended : Ended progress.place.ahead)
    (keyword : progress.place.maybeCommand = (some .asNeeded, after)) :
    progress.resume .items = (progress.movedTo after).resume .asNeeded ∧
      Tracks (progress.movedTo after) .asNeeded .items (progress.movedTo after).asNeeded := by
  obtain ⟨lexeme, ahead, kind⟩ := Place.ahead_of_maybeCommand_some keyword
  rw [ahead] at ended
  have next : Phase.items.next lexeme = some .asNeeded := by simp [Phase.next, kind]
  have behind : Ended (progress.movedTo after).place.ahead := ended.tail (by simp [kind])
  exact ⟨resume_of_next ahead next (Phase.effect_of_other rfl (by simp [kind])),
    asNeeded_tracks _ behind⟩

/-- The inside of a group is taken as far as it goes. -/
theorem groupItems_tracks (progress : Progress) (ended : Ended progress.place.ahead) :
    Tracks progress .items .items progress.groupItems ∧
      ∀ after, progress.groupItems = .ok after → ∀ lexeme rest, after.place.ahead = lexeme :: rest →
        lexeme.kind ≠ .literal ∧ ∀ keyword, lexeme.kind ≠ .command keyword := by
  fun_induction groupItems progress with
  | case1 progress lexeme after found ih =>
    obtain ⟨ahead, type⟩ := Place.ahead_of_maybe_some found
    have kind := (lexeme.type_eq_iff .literal (by decide)).mp type
    rw [ahead] at ended
    obtain ⟨tracks, stop⟩ := ih (ended.tail (by simp [kind]))
    have next : Phase.items.next lexeme = some .items := by simp [Phase.next, kind]
    refine ⟨Tracks.of_resume ?_ tracks, stop⟩
    exact resume_of_add ahead next (Phase.effect_of_needed rfl (by simp [Phase.needed?, kind]))
  | case2 progress here found there none =>
    have stays := Place.maybe_eq_none found
    subst stays
    rw [Place.maybeCommand_eq_none none]
    refine ⟨Tracks.refl ended, ?_⟩
    intro after same lexeme rest ahead
    cases same
    refine ⟨?_, Place.ahead_of_maybeCommand_none none ahead⟩
    intro kind
    exact Place.ahead_of_maybe_none found ahead ((lexeme.type_eq_iff .literal (by decide)).mpr kind)
  | case3 progress here found after fault failed keyword =>
    have stays := Place.maybe_eq_none found
    subst stays
    obtain ⟨start, tracks⟩ := asNeeded_tracks_of_keyword ended keyword
    rw [failed] at tracks
    exact ⟨Tracks.of_resume start tracks, fun after same => by cases same⟩
  | case4 progress here found after inner read keyword ih =>
    have stays := Place.maybe_eq_none found
    subst stays
    obtain ⟨start, tracks⟩ := asNeeded_tracks_of_keyword ended keyword
    rw [read] at tracks
    cases tracks with
    | ok ended same =>
      obtain ⟨tracks, stop⟩ := ih ended
      exact ⟨Tracks.of_resume (start.trans same) tracks, stop⟩
  | case5 progress here found keyword after taken other =>
    have stays := Place.maybe_eq_none found
    subst stays
    obtain ⟨lexeme, ahead, kind⟩ := Place.ahead_of_maybeCommand_some taken
    have next : Phase.items.next lexeme = none := by
      unfold Phase.next
      split <;> simp_all
    refine ⟨?_, fun after same => by cases same⟩
    simp only [Cursor.save, Place.unexpected_of_ahead_cons ahead]
    exact Tracks.blame ahead next

/-- A group is read behind its keyword and leads back between directives. -/
theorem group_tracks (progress : Progress) (ended : Ended progress.place.ahead) :
    Tracks progress .group .top progress.group := by
  unfold group
  rcases Place.skip_one_cases ended .lparen .lparen with
    ⟨lexeme, opened, skip, ahead, kind, ended⟩ | ⟨lexeme, rest, skip, ahead, kind⟩
  · have next : Phase.group.next lexeme = some .items := by simp [Phase.next, kind]
    apply Tracks.of_resume (resume_of_next ahead next rfl)
    obtain ⟨inside, stop⟩ := groupItems_tracks (progress.movedTo opened) ended
    simp only [skip]
    cases read : (progress.movedTo opened).groupItems with
    | error fault =>
      rw [read] at inside
      cases inside with
      | error same => exact Tracks.error same
    | ok items =>
      rw [read] at inside
      cases inside with
      | ok ended same =>
        apply Tracks.of_resume same
        rcases Place.require_cases ended .rparen .rparen with
          ⟨last, closed, require, ahead, kind, ended⟩ | ⟨last, rest, require, ahead, kind⟩
        · have next : Phase.items.next last = some .top := by simp [Phase.next, kind]
          have close := resume_of_next ahead next (Phase.effect_of_other rfl (by simp [kind]))
          simp only [require]
          exact Tracks.of_resume close (Tracks.refl ended)
        · obtain ⟨literal, keyword⟩ := stop items read last rest ahead
          have next : Phase.items.next last = none := by
            unfold Phase.next
            split <;> simp_all
          simp only [require]
          exact Tracks.blame ahead next
  · have next : Phase.group.next lexeme = none := by simp [Phase.next, kind]
    simp only [skip, Place.unexpected_of_ahead_cons ahead]
    exact Tracks.blame ahead next

/-! ## Formats -/

/-- The bracket that closes a format selects the architecture. -/
theorem tracks_of_close {progress : Progress} {closing : Phase} {operand lexeme : Lexeme}
    {after : Place} (ahead : progress.place.ahead = lexeme :: after.ahead)
    (ended : Ended after.ahead) (next : closing.next lexeme = some .top)
    (effect : closing.effect lexeme progress.contents = progress.contents.select operand) :
    Tracks progress closing .top
      (archOf operand >>= fun arch =>
        pure { progress with place := after, cpuArch := some arch }) := by
  cases found : CpuArch.ofOutputFormat? operand.text with
  | none =>
    simp only [archOf, found, bind, Except.bind]
    apply Tracks.error
    rw [resume, ahead]
    apply Reading.run_cons_of_error
    simp [Reading.step, reading, next, effect, Contents.select, found, Except.map]
  | some arch =>
    simp only [archOf, found, bind, Except.bind, pure, Except.pure]
    apply Tracks.ok ended
    rw [resume, ahead]
    refine Reading.run_cons_of_step (Reading.step_eq_ok_iff.mpr ⟨next, ?_⟩)
    simp only [reading, effect, Contents.select, found]
    rfl

/-- A format in parentheses is read behind its opening parenthesis. -/
theorem formatOpen_tracks {progress : Progress} (ended : Ended progress.place.ahead) :
    Tracks progress .formatOpen .top (do
      let (operand, after) ← progress.place.require .literal
      let (_, after) ← after.require .rparen
      let arch ← archOf operand
      return { progress with place := after, cpuArch := some arch }) := by
  rcases Place.require_cases ended .literal .literal with
    ⟨operand, behind, read, ahead, kind, ended⟩ | ⟨operand, rest, read, ahead, kind⟩
  · have next : Phase.formatOpen.next operand = some (.formatRead operand) := by
      simp [Phase.next, kind]
    apply Tracks.of_resume (resume_of_next ahead next rfl)
    rcases Place.require_cases ended .rparen .rparen with
      ⟨last, closed, close, ahead, kind, ended⟩ | ⟨last, rest, close, ahead, kind⟩
    · have next : (Phase.formatRead operand).next last = some .top := by simp [Phase.next, kind]
      simp only [read, close, bind, Except.bind]
      exact tracks_of_close ahead ended next rfl
    · have next : (Phase.formatRead operand).next last = none := by simp [Phase.next, kind]
      simp only [read, close, bind, Except.bind]
      exact Tracks.blame ahead next
  · have next : Phase.formatOpen.next operand = none := by simp [Phase.next, kind]
    simp only [read, bind, Except.bind]
    exact Tracks.blame ahead next

/-- A block is read behind its format: there may be one newline before the brace that closes it. -/
theorem blockRead_tracks {progress : Progress} (operand : Lexeme)
    (ended : Ended progress.place.ahead) :
    Tracks progress (.blockRead operand) .top (do
      let (_, after) ← (progress.place.skip [.newline]).2.require .rbrace
      let arch ← archOf operand
      return { progress with place := after, cpuArch := some arch }) := by
  rcases Place.skip_one_cases ended .newline .newline with
    ⟨newline, behind, skip, ahead, kind, ended⟩ | ⟨other, rest, skip, ahead, kind⟩
  · have next : (Phase.blockRead operand).next newline = some (.blockLastLine operand) := by
      simp [Phase.next, kind]
    have stays : (Phase.blockRead operand).selected? newline = none := by
      simp [Phase.selected?, kind]
    have effect : (Phase.blockRead operand).effect newline progress.contents =
        .ok progress.contents := Phase.effect_of_other stays (by simp [kind])
    apply Tracks.of_resume (resume_of_next ahead next effect)
    rcases Place.require_cases ended .rbrace .rbrace with
      ⟨last, closed, close, ahead, kind, ended⟩ | ⟨last, rest, close, ahead, kind⟩
    · have next : (Phase.blockLastLine operand).next last = some .top := by simp [Phase.next, kind]
      simp only [skip, close, bind, Except.bind]
      exact tracks_of_close ahead ended next rfl
    · have next : (Phase.blockLastLine operand).next last = none := by simp [Phase.next, kind]
      simp only [skip, close, bind, Except.bind]
      exact Tracks.blame ahead next
  · rcases Place.require_cases ended .rbrace .rbrace with
      ⟨last, closed, close, ahead, kind, ended⟩ | ⟨last, rest', close, ahead', brace⟩
    · have next : (Phase.blockRead operand).next last = some .top := by simp [Phase.next, kind]
      simp only [skip, close, bind, Except.bind]
      exact tracks_of_close ahead ended next (by simp [Phase.effect, Phase.selected?, kind])
    · rw [ahead] at ahead'
      cases ahead'
      have next : (Phase.blockRead operand).next other = none := by
        unfold Phase.next
        split <;> simp_all
      simp only [skip, close, bind, Except.bind]
      exact Tracks.blame ahead next

/-- A format in braces is read behind its opening brace. -/
theorem blockOpen_tracks {progress : Progress} (ended : Ended progress.place.ahead) :
    Tracks progress .blockOpen .top (do
      let (operand, after) ← progress.place.require .literal
      let (_, after) ← (after.skip [.newline]).2.require .rbrace
      let arch ← archOf operand
      return { progress with place := after, cpuArch := some arch }) := by
  rcases Place.require_cases ended .literal .literal with
    ⟨operand, behind, read, ahead, kind, ended⟩ | ⟨operand, rest, read, ahead, kind⟩
  · have next : Phase.blockOpen.next operand = some (.blockRead operand) := by
      simp [Phase.next, kind]
    apply Tracks.of_resume (resume_of_next ahead next rfl)
    rw [read]
    exact blockRead_tracks operand ended
  · have next : Phase.blockOpen.next operand = none := by simp [Phase.next, kind]
    simp only [read, bind, Except.bind]
    exact Tracks.blame ahead next

/-- A format is read behind its keyword and leads back between directives. -/
theorem outputFormat_tracks (progress : Progress) (ended : Ended progress.place.ahead) :
    Tracks progress .format .top progress.outputFormat := by
  unfold outputFormat formatOperand
  rcases Place.skip_one_cases ended .lparen .lparen with
    ⟨lexeme, opened, skip, ahead, kind, ended⟩ | ⟨lexeme, rest, skip, ahead, kind⟩
  · have next : Phase.format.next lexeme = some .formatOpen := by simp [Phase.next, kind]
    apply Tracks.of_resume (resume_of_next ahead next rfl)
    simp only [skip, bind_assoc, pure_bind]
    exact formatOpen_tracks ended
  · rcases Place.skip_block_cases ended with
      ⟨newline, brace, opened, lines, ahead, isNewline, isBrace, ended⟩ |
      ⟨first, others, lines, first_ahead, missing⟩
    · have second : (progress.place.advance 1).ahead = brace :: opened.ahead := by simp [ahead]
      have next : Phase.format.next newline = some (.block newline) := by
        simp [Phase.next, isNewline]
      have nextBrace : (Phase.block newline).next brace = some .blockOpen := by
        simp [Phase.next, isBrace]
      rw [← second] at ahead
      apply Tracks.of_resume (resume_of_next ahead next rfl)
      apply Tracks.of_resume (resume_of_next second nextBrace rfl)
      simp only [skip, lines, bind_assoc, pure_bind]
      exact blockOpen_tracks ended
    · rw [ahead] at first_ahead
      cases first_ahead
      simp only [skip, lines, Place.unexpected_of_ahead_cons ahead]
      rcases missing with newline | ⟨newline, second, others, rfl, brace⟩
      · have next : Phase.format.next lexeme = none := by
          unfold Phase.next
          split <;> simp_all
        exact Tracks.blame ahead next
      · have behind : (progress.place.advance 1).ahead = second :: others := by simp [ahead]
        have next : Phase.format.next lexeme = some (.block lexeme) := by
          simp [Phase.next, newline]
        have stop : (Phase.block lexeme).next second = none := by simp [Phase.next, brace]
        rw [← behind] at ahead
        exact Tracks.of_resume (resume_of_next ahead next rfl) (Tracks.blame behind stop)

/-! ## Scripts -/

/-- A directive is read from its keyword on, and `AS_NEEDED` begins none. -/
theorem directive_tracks (progress : Progress) {keyword : Command} {after : Place}
    (ended : Ended progress.place.ahead)
    (taken : progress.place.maybeCommand = (some keyword, after)) :
    Tracks progress .top .top ((progress.movedTo after).directive progress.place keyword) := by
  obtain ⟨lexeme, ahead, kind⟩ := Place.ahead_of_maybeCommand_some taken
  have behind : Ended (progress.movedTo after).place.ahead := by
    rw [ahead] at ended
    exact ended.tail (by simp [kind])
  cases keyword with
  | outputFormat =>
    have next : Phase.top.next lexeme = some .format := by simp [Phase.next, kind]
    exact Tracks.of_resume (resume_of_next ahead next rfl) (outputFormat_tracks _ behind)
  | input =>
    have next : Phase.top.next lexeme = some .group := by simp [Phase.next, kind]
    exact Tracks.of_resume (resume_of_next ahead next rfl) (group_tracks _ behind)
  | group =>
    have next : Phase.top.next lexeme = some .group := by simp [Phase.next, kind]
    exact Tracks.of_resume (resume_of_next ahead next rfl) (group_tracks _ behind)
  | asNeeded =>
    have next : Phase.top.next lexeme = none := by simp [Phase.next, kind]
    simp only [directive, Cursor.save, Place.unexpected_of_ahead_cons ahead]
    exact Tracks.blame ahead next

/-- A lexeme of the types that stand between directives is a comment or a newline. -/
theorem kind_of_between {lexeme : Lexeme} :
    lexeme.type ∈ [TokenType.comment, .newline] ↔
      lexeme.kind = .comment ∨ lexeme.kind = .newline := by
  have comment := lexeme.type_eq_iff .comment (by decide)
  have newline := lexeme.type_eq_iff .newline (by decide)
  simp only [TokenKind.type] at comment newline
  simp [comment, newline]

/-- Comments and newlines between directives leave the reading as it is. -/
theorem run_dropWhile_between (contents : Contents) {lexemes : List Lexeme}
    (ended : Ended lexemes) :
    let behind := lexemes.dropWhile (fun lexeme => lexeme.type ∈ [TokenType.comment, .newline])
    Reading.run { toContents := contents, phase := .top } lexemes =
        Reading.run { toContents := contents, phase := .top } behind ∧ Ended behind := by
  induction ended with
  | eof kind => simp [kind, Token.type, TokenKind.type, Ended.eof kind]
  | @cons lexeme rest kind ended ih =>
    by_cases between : lexeme.kind = .comment ∨ lexeme.kind = .newline
    · have next : Phase.top.next lexeme = some .top := by
        rcases between with kind | kind <;> simp [Phase.next, kind]
      have step : Reading.step { toContents := contents, phase := .top } lexeme =
          .ok { toContents := contents, phase := .top } :=
        Reading.step_eq_ok_iff.mpr ⟨next, rfl⟩
      rw [Reading.run_cons_of_step step,
        List.dropWhile_cons_of_pos (by simpa using kind_of_between.mpr between)]
      exact ih
    · rw [List.dropWhile_cons_of_neg (by simpa using mt kind_of_between.mp between)]
      exact ⟨rfl, Ended.cons kind ended⟩

/-- Skipping what stands between directives leaves the run as it is. -/
theorem resume_skipAny (progress : Progress) (ended : Ended progress.place.ahead) :
    let here := progress.place.skipAny [.comment, .newline]
    progress.resume .top = (progress.movedTo here).resume .top ∧ Ended here.ahead ∧
      ∀ lexeme rest, here.ahead = lexeme :: rest →
        lexeme.kind ≠ .comment ∧ lexeme.kind ≠ .newline := by
  intro here
  have skipped : here.ahead = _ := Place.ahead_skipAny progress.place _
  obtain ⟨same, behind⟩ := run_dropWhile_between progress.contents ended
  rw [← skipped] at same behind
  refine ⟨same, behind, ?_⟩
  intro lexeme rest ahead
  have stop := List.head?_dropWhile_not
    (fun lexeme : Lexeme => decide (lexeme.type ∈ [TokenType.comment, .newline]))
    progress.place.ahead
  rw [← skipped, ahead] at stop
  have other : ¬ lexeme.type ∈ [TokenType.comment, .newline] := by simpa using stop
  exact not_or.mp (mt kind_of_between.mpr other)

/-- The directives of a script are read as far as they go. -/
theorem directives_tracks (progress : Progress) (ended : Ended progress.place.ahead) :
    Tracks progress .top .top progress.directives ∧
      ∀ after, progress.directives = .ok after → ∀ lexeme rest,
        after.place.ahead = lexeme :: rest → lexeme.kind ≠ .eof → Phase.top.next lexeme = none := by
  fun_induction directives progress with
  | case1 progress here there keyword =>
    obtain ⟨same, behind, between⟩ := resume_skipAny progress ended
    rw [Place.maybeCommand_eq_none keyword]
    refine ⟨Tracks.of_resume same (Tracks.refl behind), ?_⟩
    intro after same lexeme rest ahead kind
    cases same
    have other := between lexeme rest ahead
    have plain := Place.ahead_of_maybeCommand_none keyword ahead
    unfold Phase.next
    split <;> simp_all
  | case2 progress here keyword after taken fault failed =>
    obtain ⟨same, behind, -⟩ := resume_skipAny progress ended
    have tracks := directive_tracks (progress.movedTo here) behind taken
    change Tracks _ _ _ ((progress.movedTo after).directive here keyword) at tracks
    rw [failed] at tracks
    exact ⟨Tracks.of_resume same tracks, fun after same => by cases same⟩
  | case3 progress here keyword after taken behind read ih =>
    obtain ⟨same, skipped, -⟩ := resume_skipAny progress ended
    have tracks := directive_tracks (progress.movedTo here) skipped taken
    change Tracks _ _ _ ((progress.movedTo after).directive here keyword) at tracks
    rw [read] at tracks
    cases tracks with
    | ok ended inside =>
      obtain ⟨tracks, stop⟩ := ih ended
      exact ⟨Tracks.of_resume (same.trans inside) tracks, stop⟩

/-- A script is read through its `eof`. -/
theorem script_contents (progress : Progress) (ended : Ended progress.place.ahead) :
    progress.script.map contents =
      ((progress.resume .top).map Reading.toContents).mapError ParseFault.link := by
  obtain ⟨tracks, stop⟩ := directives_tracks progress ended
  unfold script
  cases read : progress.directives with
  | error fault =>
    rw [read] at tracks
    cases tracks with
    | error same =>
      rw [same]
      rfl
  | ok behind =>
    rw [read] at tracks
    cases tracks with
    | ok ended same =>
      obtain ⟨lexeme, rest, ahead⟩ := ended.exists_cons
      have isEof : lexeme.type = .eof ↔ lexeme.kind = .eof := lexeme.type_eq_iff .eof (by decide)
      rw [same, resume, ahead]
      simp only [Cursor.next_of_ahead_cons ahead]
      by_cases kind : lexeme.kind = .eof
      · rw [ahead] at ended
        obtain rfl := ended.rest_eq_nil kind
        have next : Phase.top.next lexeme = some .done := by simp [Phase.next, kind]
        have last : (behind.reading .top).step lexeme = .ok (behind.reading .done) :=
          Reading.step_eq_ok_iff.mpr ⟨next, rfl⟩
        rw [if_pos (isEof.mpr kind), Reading.run_cons_of_step last]
        rfl
      · have next := stop behind read lexeme rest ahead kind
        have blame : (behind.reading .top).step lexeme = .error lexeme.unexpected :=
          Reading.step_of_next_none next
        rw [if_neg (mt isEof.mp kind), Reading.run_cons_of_error blame,
          Place.unexpected_of_ahead_cons ahead]
        rfl

end Progress

/-! ## The parser as a run -/

/-- **The parser reads lexeme by lexeme.**  On lexemes that end in `eof` it does exactly what a run
over them does: the same contents, or the same failure. -/
theorem parseLexemes_eq_run {lexemes : List Lexeme} (ended : Ended lexemes) :
    parseLexemes lexemes =
      ((Reading.run {} lexemes).map Reading.toContents).mapError ParseFault.link :=
  Progress.script_contents { place := { items := lexemes.toArray } } ended

end LinkScript
