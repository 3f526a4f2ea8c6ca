import LinkScript.Cursor
import Mathlib.Data.List.Induction

/-!
# Runs of a cursor

What a cursor answers over a whole sequence of moves, whichever they are.

* `after` is the cursor that a sequence of moves leaves.  `moves_append` and `getElem?_moves` say
  what `moves` answers by means of it: each move is answered by the cursor that those before it left.
* `Move.Allowed` keeps to the marks that have been answered, and `Legal` is a sequence of such moves.
* `Within` says that a cursor lies between the first item and the end, and that every position and
  every mark answered until then does.  `Within.move` is the step and `within_after` the run.
* `AnswersOver` says how a cursor answers next, by its items and its position alone.
* `after_restore`: sent back to a mark, a cursor is what it was when the mark was answered.  So it
  answers in the same way (`moves_after_restore`).
-/

namespace LinkScript.Cursor

variable {α : Type} {cursor : Cursor α} {items : Array α}

/-! ## The cursor that a sequence of moves leaves -/

/-- A cursor at the first of some items. -/
def start (items : Array α) : Cursor α := { items }

/-- The cursor after a sequence of moves. -/
def after (cursor : Cursor α) (asked : List Move) : Cursor α :=
  asked.foldl (fun here move => (here.move move).2) cursor

/-- Asked nothing, a cursor stays as it is. -/
@[simp] theorem after_nil (cursor : Cursor α) : cursor.after [] = cursor := rfl

/-- The first move is made by the cursor, and the others by what it comes to. -/
@[simp] theorem after_cons (cursor : Cursor α) (first : Move) (rest : List Move) :
    cursor.after (first :: rest) = (cursor.move first).2.after rest := rfl

/-- What some moves lead to makes the moves behind them. -/
theorem after_append (cursor : Cursor α) (asked later : List Move) :
    cursor.after (asked ++ later) = (cursor.after asked).after later :=
  List.foldl_append

/-- Asked nothing, a cursor answers nothing. -/
@[simp] theorem moves_nil (cursor : Cursor α) : cursor.moves [] = [] := rfl

/-- The first answer is the one to the first move, and the others are given from where it leads. -/
@[simp] theorem moves_cons (cursor : Cursor α) (first : Move) (rest : List Move) :
    cursor.moves (first :: rest) =
      ((cursor.move first).1, (cursor.move first).2.pos) :: (cursor.move first).2.moves rest := rfl

/-- There is an answer to every move. -/
@[simp] theorem length_moves (cursor : Cursor α) (asked : List Move) :
    (cursor.moves asked).length = asked.length := by
  induction asked generalizing cursor with
  | nil => rfl
  | cons first rest ih => rw [moves_cons, List.length_cons, ih, List.length_cons]

/-- Later moves are answered by the cursor that the earlier ones left. -/
theorem moves_append (cursor : Cursor α) (asked later : List Move) :
    cursor.moves (asked ++ later) = cursor.moves asked ++ (cursor.after asked).moves later := by
  induction asked generalizing cursor with
  | nil => rfl
  | cons first rest ih => rw [List.cons_append, moves_cons, ih, after_cons, moves_cons,
      List.cons_append]

/-- What is answered behind some moves. -/
theorem drop_moves (cursor : Cursor α) {asked later : List Move} {count : Nat}
    (length : asked.length = count) :
    (cursor.moves (asked ++ later)).drop count = (cursor.after asked).moves later := by
  rw [moves_append]
  exact List.drop_left' ((length_moves cursor asked).trans length)

/-- Each move is answered by the cursor that those before it left. -/
theorem getElem?_moves (cursor : Cursor α) (asked : List Move) (k : Nat) :
    (cursor.moves asked)[k]? = asked[k]?.map fun move =>
      (((cursor.after (asked.take k)).move move).1, ((cursor.after (asked.take k)).move move).2.pos) := by
  induction asked generalizing cursor k with
  | nil => rfl
  | cons first rest ih =>
    cases k with
    | zero => rfl
    | succ k => rw [moves_cons, List.getElem?_cons_succ, ih, List.take_succ_cons, after_cons,
        List.getElem?_cons_succ]

/-! ## One move -/

/-- No move touches the items. -/
@[simp] theorem items_move (cursor : Cursor α) (move : Move) :
    (cursor.move move).2.items = cursor.items := by
  cases move with
  | next =>
    simp only [Cursor.move, next]
    split <;> rfl
  | peek | get | save | restore | rewindBy => rfl

/-- No move changes the items. -/
@[simp] theorem items_after (cursor : Cursor α) (asked : List Move) :
    (cursor.after asked).items = cursor.items := by
  induction asked generalizing cursor with
  | nil => rfl
  | cons first rest ih => rw [after_cons, ih, items_move]

/-- With an item under the cursor, `next` answers it and goes one further. -/
theorem move_next_of_lt (inside : cursor.pos < cursor.items.size) :
    cursor.move .next =
      (.item (some cursor.items[cursor.pos]), { cursor with pos := cursor.pos + 1 }) := by
  have under : cursor.peek = some cursor.items[cursor.pos] := Array.getElem?_eq_getElem inside
  simp only [Cursor.move, next, under]

/-- With none, it answers that there is none, and stays. -/
theorem move_next_of_le (outside : cursor.items.size ≤ cursor.pos) :
    cursor.move .next = (.item none, cursor) := by
  have under : cursor.peek = none := Array.getElem?_eq_none outside
  simp only [Cursor.move, next, under]

/-- `peek` answers as `next` does. -/
theorem move_peek (cursor : Cursor α) : cursor.move .peek = ((cursor.move .next).1, cursor) := by
  rcases Nat.lt_or_ge cursor.pos cursor.items.size with inside | outside
  · rw [move_next_of_lt inside]
    simp only [Cursor.move, peek, Array.getElem?_eq_getElem inside]
  · rw [move_next_of_le outside]
    simp only [Cursor.move, peek, Array.getElem?_eq_none outside]

/-- A look-up finds the item at an index of the items. -/
theorem get_of_lt {index : Nat} (inside : index < cursor.items.size) :
    cursor.get index = .ok cursor.items[index] := by
  have positive : ¬ (index : Int) < 0 := by omega
  simp only [get, if_neg positive, Int.toNat_natCast, Array.getElem?_eq_getElem inside]

/-- It fails for every other one, and tells which. -/
theorem get_of_outside {index : Int} (outside : index < 0 ∨ cursor.items.size ≤ index) :
    cursor.get index = .error ⟨index, cursor.items.size⟩ := by
  unfold get
  split
  · rfl
  · have behind : cursor.items.size ≤ index.toNat := by omega
    rw [Array.getElem?_eq_none behind]

/-- A look-up fails exactly outside of the items. -/
theorem get_eq_error_iff {index : Int} :
    (∃ fault, cursor.get index = .error fault) ↔ index < 0 ∨ cursor.items.size ≤ index := by
  constructor
  · rintro ⟨fault, failed⟩
    by_contra inside
    obtain ⟨k, rfl⟩ := Int.eq_ofNat_of_zero_le (by omega : 0 ≤ index)
    rw [get_of_lt (by omega)] at failed
    cases failed
  · intro outside
    exact ⟨_, get_of_outside outside⟩

/-- Only `save` answers a mark, which is the position, and it stays there. -/
theorem eq_pos_of_mark {move : Move} {mark : Nat} (answered : (cursor.move move).1 = .mark mark) :
    mark = cursor.pos ∧ (cursor.move move).2 = cursor := by
  cases move with
  | save =>
    cases answered
    exact ⟨rfl, rfl⟩
  | next | peek | get | restore | rewindBy => cases answered

/-! ## Marks that have been answered -/

/-- The mark that an answer is, if it is one. -/
def Answer.mark? : Answer α → Option Nat
  | .mark position => some position
  | _ => none

/-- The marks among some answers. -/
def noted (answers : List (Answer α × Nat)) : List Nat := answers.filterMap (·.1.mark?)

/-- A move that may be made when these marks have been noted: a cursor is sent back to one of them
only, and wound back but not forward. -/
def Move.Allowed (marks : List Nat) : Move → Prop
  | .restore mark => mark ∈ marks
  | .rewindBy count => 0 ≤ count
  | _ => True

instance (marks : List Nat) : (move : Move) → Decidable (move.Allowed marks)
  | .restore mark => inferInstanceAs (Decidable (mark ∈ marks))
  | .rewindBy count => inferInstanceAs (Decidable (0 ≤ count))
  | .next | .peek | .get _ | .save => .isTrue trivial

/-- A sequence of moves each of which may be made when its turn comes. -/
def Legal (cursor : Cursor α) (asked : List Move) : Prop :=
  ∀ k (inside : k < asked.length), asked[k].Allowed (noted (cursor.moves (asked.take k)))

instance (cursor : Cursor α) (asked : List Move) : Decidable (cursor.Legal asked) :=
  inferInstanceAs (Decidable (∀ k (_ : k < asked.length), _))

/-- One more move is legal if it is allowed by what has been answered. -/
theorem legal_concat {asked : List Move} {move : Move} (legal : cursor.Legal (asked ++ [move])) :
    cursor.Legal asked ∧ move.Allowed (noted (cursor.moves asked)) := by
  constructor
  · intro k inside
    have allowed := legal k (by rw [List.length_append]; omega)
    rwa [List.getElem_append_left inside, List.take_append_of_le_length (Nat.le_of_lt inside)]
      at allowed
  · have allowed := legal asked.length (by simp)
    rwa [List.getElem_concat_length rfl, List.take_left] at allowed

/-! ## Between the first item and the end -/

/-- A cursor between the first item and the end, after answers with no position and no mark
elsewhere. -/
structure Within (cursor : Cursor α) (answers : List (Answer α × Nat)) : Prop where
  pos_le : cursor.pos ≤ cursor.items.size
  answered_le : ∀ step ∈ answers, step.2 ≤ cursor.items.size
  noted_le : ∀ mark ∈ noted answers, mark ≤ cursor.items.size

/-- An allowed move leaves the cursor between the first item and the end. -/
theorem Within.pos_move_le {answers : List (Answer α × Nat)} (within : cursor.Within answers)
    {move : Move} (allowed : move.Allowed (noted answers)) :
    (cursor.move move).2.pos ≤ cursor.items.size := by
  have here := within.pos_le
  cases move with
  | next =>
    rcases Nat.lt_or_ge cursor.pos cursor.items.size with inside | outside
    · rw [move_next_of_lt inside]
      exact inside
    · rw [move_next_of_le outside]
      exact here
  | peek | get | save => exact here
  | restore mark => exact within.noted_le mark allowed
  | rewindBy count =>
    have back : 0 ≤ count := allowed
    show (cursor.rewindBy count).pos ≤ cursor.items.size
    rw [rewindBy_pos (by omega)]
    omega

/-- **One step**: an allowed move keeps a cursor, its answers and its marks within the items. -/
theorem Within.move {answers : List (Answer α × Nat)} (within : cursor.Within answers)
    {move : Move} (allowed : move.Allowed (noted answers)) :
    (cursor.move move).2.Within
      (answers ++ [((cursor.move move).1, (cursor.move move).2.pos)]) := by
  have moved := within.pos_move_le allowed
  constructor
  · rwa [items_move]
  · rw [items_move, List.forall_mem_append]
    exact ⟨within.answered_le, List.forall_mem_singleton.mpr moved⟩
  · rw [items_move, noted, List.filterMap_append, List.forall_mem_append]
    refine ⟨within.noted_le, ?_⟩
    intro mark mem
    obtain ⟨step, isLast, isMark⟩ := List.mem_filterMap.mp mem
    rw [List.mem_singleton.mp isLast] at isMark
    -- a mark that the move answers is the position it was made at
    cases answer : (cursor.move move).1 with
    | mark position =>
      rw [answer] at isMark
      cases isMark
      exact (eq_pos_of_mark answer).1 ▸ within.pos_le
    | item | lookup | moved =>
      rw [answer] at isMark
      cases isMark

/-- **A whole run**: legal moves keep a cursor within its items, by induction from the last one. -/
theorem within_after {asked : List Move} (legal : (start items).Legal asked) :
    ((start items).after asked).Within ((start items).moves asked) := by
  induction asked using List.reverseRecOn with
  | nil => exact ⟨Nat.zero_le _, List.forall_mem_nil _, List.forall_mem_nil _⟩
  | append_singleton asked last ih =>
    obtain ⟨earlier, allowed⟩ := legal_concat legal
    rw [after_append, moves_append]
    exact (ih earlier).move allowed

/-! ## What is answered next -/

/-- How a cursor over some items answers next, by its position.  The positions go from the first
item to the end, where there is no item. -/
structure AnswersOver (cursor : Cursor α) (items : Array α) : Prop where
  pos_le : cursor.pos ≤ items.size
  next_some : ∀ inside : cursor.pos < items.size,
    cursor.move .next = (.item (some items[cursor.pos]), ⟨items, cursor.pos + 1⟩)
  next_none : cursor.move .next = (.item none, cursor) ↔ cursor.pos = items.size
  peek : cursor.move .peek = ((cursor.move .next).1, cursor)
  get_some : ∀ index (inside : index < items.size),
    cursor.move (.get index) = (.lookup (.ok items[index]), cursor)
  get_stays : ∀ index, (cursor.move (.get index)).2 = cursor
  get_fails : ∀ index, (∃ fault, (cursor.move (.get index)).1 = .lookup (.error fault)) ↔
    index < 0 ∨ items.size ≤ index

/-- A cursor within its items answers by its position. -/
theorem answersOver_of_pos_le (within : cursor.pos ≤ cursor.items.size) :
    cursor.AnswersOver cursor.items where
  pos_le := within
  next_some := move_next_of_lt
  next_none := by
    constructor
    · intro stays
      by_contra before
      rw [move_next_of_lt (by omega)] at stays
      cases stays
    · intro atEnd
      exact move_next_of_le (Nat.le_of_eq atEnd.symm)
  peek := move_peek cursor
  get_some index inside := by
    rw [Cursor.move, get_of_lt inside]
  get_stays index := rfl
  get_fails index := by
    rw [← get_eq_error_iff]
    simp only [Cursor.move, Answer.lookup.injEq]

/-! ## Sent back to a mark -/

/-- A cursor sent back to a mark is the cursor that answered the mark, whatever was asked of it
meanwhile. -/
theorem after_restore {asked : List Move} {k mark position : Nat}
    (answered : (cursor.moves asked)[k]? = some (.mark mark, position)) :
    cursor.after (asked ++ [.restore mark]) = cursor.after (asked.take (k + 1)) := by
  rw [getElem?_moves] at answered
  obtain ⟨move, asks, answer⟩ := Option.map_eq_some_iff.mp answered
  obtain ⟨here, stays⟩ := eq_pos_of_mark (congrArg Prod.fst answer)
  rw [List.take_add_one, asks, after_append, after_append]
  show ((cursor.after asked).restore mark) = ((cursor.after (asked.take k)).move move).2
  rw [stays, restore, here]
  -- the position is that of the mark, and no move has touched the items
  have same : (cursor.after asked).items = (cursor.after (asked.take k)).items := by
    rw [items_after, items_after]
  rw [same]

/-- So it answers what is asked of it then as it would have been answered at the mark. -/
theorem moves_after_restore {asked : List Move} {k mark position : Nat}
    (answered : (cursor.moves asked)[k]? = some (.mark mark, position)) (later : List Move) :
    (cursor.moves (asked ++ .restore mark :: later)).drop (asked.length + 1) =
      (cursor.moves (asked.take (k + 1) ++ later)).drop (k + 1) := by
  have inside : k < asked.length := by
    rw [← length_moves cursor asked]
    exact (List.getElem?_eq_some_iff.mp answered).1
  have taken : (asked.take (k + 1)).length = k + 1 := List.length_take_of_le inside
  have whole : (asked ++ [Move.restore mark]).length = asked.length + 1 := by simp
  rw [List.append_cons, drop_moves cursor whole, drop_moves cursor taken, after_restore answered]

/-- **The runs of a cursor.**  After any legal moves a cursor over some items lies between the first
item and the end, as all positions answered until then, and answers next by its position alone.

Sent back to a mark that was answered, it answers whatever is asked then as it would have been
answered just behind the mark. -/
theorem run_answers {asked : List Move} (legal : (start items).Legal asked) :
    (∀ step ∈ (start items).moves asked, step.2 ≤ items.size) ∧
    ((start items).after asked).AnswersOver items ∧
    ∀ (k mark position : Nat), ((start items).moves asked)[k]? = some (.mark mark, position) →
      ∀ later, ((start items).moves (asked ++ .restore mark :: later)).drop (asked.length + 1) =
        ((start items).moves (asked.take (k + 1) ++ later)).drop (k + 1) := by
  have within := within_after legal
  have same : ((start items).after asked).items = items := items_after (start items) asked
  refine ⟨?_, ?_, ?_⟩
  · have answered := within.answered_le
    rwa [same] at answered
  · have answers := answersOver_of_pos_le within.pos_le
    rwa [same] at answers
  · intro k mark position answered later
    exact moves_after_restore answered later

/-- A run to the end and past it, through a look-up that fails, back beyond the first item and to the
mark behind it. -/
theorem run_answers_wound :
    let items := #['(', 'a', ')']
    let asked : List Move := [.next, .save, .next, .next, .next, .get 7, .rewindBy 9]
    (start items).Legal asked ∧ (∀ step ∈ (start items).moves asked, step.2 ≤ 3) ∧
      ((start items).after asked).AnswersOver items ∧
      ∀ later, ((start items).moves (asked ++ .restore 1 :: later)).drop 8 =
        ((start items).moves (.next :: .save :: later)).drop 2 := by
  intro items asked
  have legal : (start items).Legal asked := by decide
  obtain ⟨inside, answers, restored⟩ := run_answers legal
  refine ⟨legal, inside, answers, ?_⟩
  intro later
  exact restored 1 1 1 rfl later

end LinkScript.Cursor
