import LinkScript.Proofs.Token.Invalid
import LinkScript.Proofs.Token.Respell

/-!
# Tokens overwritten in place

Chosen tokens of a source are given other bytes, as many as they had, and everything else stays
where it is.

* `overwrite` puts new bytes over the spans of chosen lexemes, byte by byte.
* Inside a tiling this goes lexeme by lexeme: gaps stay (`overwriteFrom_gap`), and each lexeme keeps
  its bytes or is overwritten (`overwriteFrom_token`).
* `scan_overwrite`: with new bytes that are a respelling, the scan is the respelled one.
-/

namespace LinkScript

instance (span : Span) (index : Nat) : Decidable (span.Holds index) :=
  inferInstanceAs (Decidable (_ ∧ _))

section

variable (spell : Lexeme → Bytes) (chosen : List Lexeme)

/-- The byte that chosen lexemes put at an offset, if one of them lies there. -/
def writtenAt (index : Nat) : Option UInt8 :=
  (chosen.find? (·.span.Holds index)).bind fun lexeme => (spell lexeme)[index - lexeme.span.start]?

/-- Bytes that begin at an offset, with chosen lexemes overwritten. -/
def overwriteFrom (offset : Nat) (bytes : Bytes) : Bytes :=
  bytes.mapIdx fun index byte => (writtenAt spell chosen (offset + index)).getD byte

/-- A source with the new bytes of chosen lexemes over their spans. -/
def overwrite (source : Bytes) : Bytes := overwriteFrom spell chosen 0 source

/-- Overwriting keeps the length of a source. -/
@[simp] theorem length_overwrite (source : Bytes) :
    (overwrite spell chosen source).length = source.length :=
  List.length_mapIdx

/-- What stands behind other bytes is overwritten at its own offset. -/
theorem overwriteFrom_append (offset : Nat) (front back : Bytes) :
    overwriteFrom spell chosen offset (front ++ back) =
      overwriteFrom spell chosen offset front ++
        overwriteFrom spell chosen (offset + front.length) back := by
  unfold overwriteFrom
  rw [List.mapIdx_append]
  simp only [Nat.add_assoc, Nat.add_comm front.length]

variable {spell chosen}

/-- Bytes at which no chosen lexeme lies stay. -/
theorem overwriteFrom_of_free {offset : Nat} {bytes : Bytes}
    (free : ∀ index < bytes.length, ∀ lexeme ∈ chosen, ¬ lexeme.span.Holds (offset + index)) :
    overwriteFrom spell chosen offset bytes = bytes := by
  apply List.ext_getElem?
  intro index
  unfold overwriteFrom
  rw [List.getElem?_mapIdx]
  cases found : bytes[index]? with
  | none => rfl
  | some byte =>
    have inside := (List.getElem?_eq_some_iff.mp found).1
    have none : chosen.find? (·.span.Holds (offset + index)) = none := by
      rw [List.find?_eq_none]
      intro lexeme mem
      simpa using free index inside lexeme mem
    simp only [writtenAt, none, Option.bind_none, Option.map_some, Option.getD_none]

/-- The bytes of a chosen lexeme become its new bytes, if no other one lies there. -/
theorem overwriteFrom_of_chosen {lexeme : Lexeme} {bytes : Bytes} (mem : lexeme ∈ chosen)
    (alone : ∀ other ∈ chosen, ∀ index, lexeme.span.Holds index → other.span.Holds index →
      other = lexeme)
    (stop : lexeme.span.stop = lexeme.span.start + bytes.length)
    (length : (spell lexeme).length = bytes.length) :
    overwriteFrom spell chosen lexeme.span.start bytes = spell lexeme := by
  apply List.ext_getElem?
  intro index
  unfold overwriteFrom
  rw [List.getElem?_mapIdx]
  cases found : bytes[index]? with
  | none =>
    have outside := List.getElem?_eq_none_iff.mp found
    rw [List.getElem?_eq_none (by omega)]
    rfl
  | some byte =>
    have inside := (List.getElem?_eq_some_iff.mp found).1
    have holds : lexeme.span.Holds (lexeme.span.start + index) := ⟨by omega, by omega⟩
    have written : (spell lexeme)[index]? = some (spell lexeme)[index] :=
      List.getElem?_eq_getElem (by omega)
    unfold writtenAt
    cases first : chosen.find? (·.span.Holds (lexeme.span.start + index)) with
    | none =>
      have missed := List.find?_eq_none.mp first lexeme mem
      exact absurd holds (by simpa using missed)
    | some other =>
      have covers := List.find?_some first
      have same : other = lexeme :=
        alone other (List.mem_of_find?_eq_some first) _ holds (by simpa using covers)
      simp only [same, Option.bind_some, Nat.add_sub_cancel_left, written, Option.map_some,
        Option.getD_some]

end

/-! ## Along a tiling -/

/-- Every chosen lexeme is still to be found, or lies before an offset. -/
def Awaits (chosen : List Lexeme) (offset : Nat) (found : List Lexeme) : Prop :=
  ∀ lexeme ∈ chosen, lexeme ∈ found ∨ lexeme.span.stop ≤ offset

section

variable {spell : Lexeme → Bytes} {chosen : List Lexeme} {offset : Nat} {gap rest : Bytes}
  {first : Lexeme} {others : List Lexeme}

/-- The blanks in front of the first lexeme stay. -/
theorem overwriteFrom_gap (awaits : Awaits chosen offset (first :: others))
    (start : first.span.start = offset + gap.length)
    (later : ∀ lexeme ∈ others, first.span.start ≤ lexeme.span.start) :
    overwriteFrom spell chosen offset gap = gap := by
  apply overwriteFrom_of_free
  rintro index inside lexeme mem ⟨behind, before⟩
  rcases awaits lexeme mem with ahead | past
  · have further : first.span.start ≤ lexeme.span.start := by
      rcases List.mem_cons.mp ahead with rfl | ahead
      · exact Nat.le_refl _
      · exact later lexeme ahead
    omega
  · omega

/-- Behind the first lexeme the other ones are to be found. -/
theorem Awaits.tail (awaits : Awaits chosen offset (first :: others)) {stop : Nat}
    (low : offset ≤ stop) (end_eq : first.span.stop = stop) : Awaits chosen stop others := by
  intro lexeme mem
  rcases awaits lexeme mem with ahead | past
  · rcases List.mem_cons.mp ahead with rfl | ahead
    · exact Or.inr (Nat.le_of_eq end_eq)
    · exact Or.inl ahead
  · exact Or.inr (past.trans low)

/-- **The first lexeme of a tiling keeps its bytes or is overwritten**, between the blanks in front
of it and what stands behind it. -/
theorem overwriteFrom_token (awaits : Awaits chosen offset (first :: others))
    (span : first.span = ⟨offset + gap.length, offset + gap.length + first.bytes.length⟩)
    (later : ∀ lexeme ∈ others, first.span.stop ≤ lexeme.span.start)
    (length : first ∈ chosen → (spell first).length = first.bytes.length) :
    overwriteFrom spell chosen offset (gap ++ first.bytes ++ rest) =
      gap ++ (if first ∈ chosen then spell first else first.bytes) ++
        overwriteFrom spell chosen first.span.stop rest := by
  have start : first.span.start = offset + gap.length := by rw [span]
  have stop : first.span.stop = first.span.start + first.bytes.length := by rw [span]
  have alone : ∀ other ∈ chosen, ∀ index, first.span.Holds index → other.span.Holds index →
      other = first := by
    rintro other mem index ⟨low, high⟩ ⟨low', high'⟩
    rcases awaits other mem with ahead | past
    · rcases List.mem_cons.mp ahead with rfl | ahead
      · rfl
      · have := later other ahead
        omega
    · omega
  have before : overwriteFrom spell chosen offset gap = gap := by
    apply overwriteFrom_gap awaits start
    intro lexeme mem
    have behind := later lexeme mem
    omega
  rw [overwriteFrom_append, overwriteFrom_append, List.length_append, ← Nat.add_assoc, before,
    ← start, ← stop]
  congr 2
  split
  · next mem => exact overwriteFrom_of_chosen mem alone stop (length mem)
  · next other =>
    apply overwriteFrom_of_free
    intro index inside lexeme mem holds
    apply other
    rw [← alone lexeme mem _ ⟨Nat.le_add_right _ _, by omega⟩ holds]
    exact mem

end

/-- Lexemes of a scan are all to be found from its beginning on. -/
theorem awaits_scan {source : Bytes} {chosen : List Lexeme} (among : chosen ⊆ scan source) :
    Awaits chosen 0 (scan source) :=
  fun _ mem => Or.inl (among mem)

/-! ## New bytes that are a respelling -/

/-- Lexemes overwritten as they are respelled make the respelled bytes. -/
theorem overwriteFrom_eq_spelled {spelling : Respelling} {spell : Lexeme → Bytes}
    {chosen : List Lexeme} {offset : Nat} {input : Bytes} {found : List Lexeme}
    (tiled : Tiled offset input found) (awaits : Awaits chosen offset found)
    (agree : ∀ lexeme ∈ found,
      spelling.bytes lexeme = if lexeme ∈ chosen then spell lexeme else lexeme.bytes)
    (length : ∀ lexeme ∈ chosen, (spell lexeme).length = lexeme.bytes.length)
    (front : Bytes) (size : front.length = offset) :
    overwriteFrom spell chosen offset input = spelling.spelled (front ++ input) offset found := by
  induction tiled generalizing front with
  | @eof offset gap last _ kind bytes span =>
    have start : last.span.start = front.length + gap.length := by rw [span, size]
    have kept : overwriteFrom spell chosen offset gap = gap :=
      overwriteFrom_gap awaits (by rw [span]) (List.forall_mem_nil _)
    have cut := spelling.spelled_cons front gap [] [] start
    rw [spelling.bytes_eq_nil kind bytes, size] at cut
    simpa [Respelling.spelled, kept] using cut.symm
  | @token offset gap rest first others _ _ _ span tail ih =>
    have start : first.span.start = front.length + gap.length := by rw [span, size]
    have stop : first.span.stop = offset + gap.length + first.bytes.length := by rw [span]
    have later : ∀ lexeme ∈ others, first.span.stop ≤ lexeme.span.start := by
      rw [stop]
      exact tail.offset_le_start
    have cut := spelling.spelled_cons front gap (first.bytes ++ rest) others start
    have behind := ih (awaits.tail (by omega) stop)
      (fun lexeme mem => agree lexeme (List.mem_cons_of_mem _ mem)) (front ++ gap ++ first.bytes)
      (by simp [size, Nat.add_assoc])
    rw [← stop] at behind
    simp only [List.append_assoc] at behind
    rw [overwriteFrom_token awaits span later (length first), List.append_assoc gap first.bytes,
      ← size, cut, ← behind, agree first List.mem_cons_self]

/-- **The scan with new bytes over chosen tokens**, where these are a respelling: every token is
respelled where it stands. -/
theorem scan_overwrite {spelling : Respelling} {spell : Lexeme → Bytes}
    {chosen : List Lexeme} {source : Bytes} (among : chosen ⊆ scan source)
    (agree : ∀ lexeme ∈ scan source,
      spelling.bytes lexeme = if lexeme ∈ chosen then spell lexeme else lexeme.bytes)
    (same : ∀ lexeme, (spelling.bytes lexeme).length = lexeme.bytes.length) :
    scan (overwrite spell chosen source) = (scan source).map fun lexeme =>
      { lexeme with kind := spelling.kind lexeme, bytes := spelling.bytes lexeme } := by
  have length : ∀ lexeme ∈ chosen, (spell lexeme).length = lexeme.bytes.length := by
    intro lexeme mem
    rw [← same lexeme, agree lexeme (among mem), if_pos mem]
  have spelled : overwrite spell chosen source = spelling.source source :=
    overwriteFrom_eq_spelled (scan_tiled source) (awaits_scan among) agree length [] rfl
  rw [spelled, spelling.scan_source_eq_map]
  apply List.map_congr_left
  intro lexeme _
  exact spelling.moved_of_length same source lexeme

end LinkScript
