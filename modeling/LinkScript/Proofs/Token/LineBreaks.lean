import LinkScript.Proofs.Token.Respell
import Mathlib.Algebra.BigOperators.Group.List.Basic
import Mathlib.Data.List.Sort

/-!
# Longer line breaks

A line feed that is a newline by itself can be made a carriage return and a line feed, and so can
any choice of such line feeds.

* `withReturns` puts a carriage return in front of chosen bytes, and `ChoosesLineFeeds` says that
  these are newlines of a scan.
* `Respelling.lineBreaks` spells newlines in this way.  Both make one source
  (`spelled_lineBreaks`), and both count the same bytes before an offset (`grown_lineBreaks`).
* `scan_withReturns` is the scan of that source: the lexemes are the old ones, further on by the
  returns before them, on the same lines and in the same columns.
-/

namespace LinkScript

/-! ## Returns in front of bytes -/

section

variable (chosen : Nat → Bool)

/-- Bytes that begin at an offset, with a carriage return in front of each chosen one. -/
def withReturns : Nat → Bytes → Bytes
  | _, [] => []
  | offset, byte :: rest =>
    (if chosen offset then [Byte.carriageReturn, byte] else [byte]) ++ withReturns (offset + 1) rest

/-- How many chosen bytes there are before an offset. -/
def returnsBefore (offset : Nat) : Nat := (List.range offset).countP chosen

/-- The span further on by the returns before its ends. -/
def Span.withReturns (span : Span) : Span :=
  ⟨span.start + returnsBefore chosen span.start, span.stop + returnsBefore chosen span.stop⟩

/-- The lexeme further on by the returns before it, with one in front if its first byte is
chosen. -/
def Lexeme.withReturn (lexeme : Lexeme) : Lexeme where
  kind := lexeme.kind
  span := lexeme.span.withReturns chosen
  bytes := if chosen lexeme.span.start then Byte.carriageReturn :: lexeme.bytes else lexeme.bytes
  position := lexeme.position

/-- From an offset on, every chosen byte is a newline among these lexemes. -/
def ChoosesLineFeeds (offset : Nat) (found : List Lexeme) : Prop :=
  ∀ place, offset ≤ place → chosen place → ∃ lexeme ∈ found,
    lexeme.kind = .newline ∧ lexeme.bytes = [Byte.lineFeed] ∧ lexeme.span.start = place

end

variable {chosen : Nat → Bool}

/-- Returns are put into two parts of a source each on its own, the second one further on. -/
theorem withReturns_append (offset : Nat) (front back : Bytes) :
    withReturns chosen offset (front ++ back) =
      withReturns chosen offset front ++ withReturns chosen (offset + front.length) back := by
  induction front generalizing offset with
  | nil => rfl
  | cons byte front ih =>
    rw [List.cons_append, withReturns, withReturns, ih, List.append_assoc, List.length_cons,
      Nat.add_right_comm, Nat.add_assoc]

/-- Bytes of which none is chosen stay as they are. -/
theorem withReturns_of_not_chosen {offset : Nat} {bytes : Bytes}
    (none : ∀ place, offset ≤ place → place < offset + bytes.length → ¬ chosen place) :
    withReturns chosen offset bytes = bytes := by
  induction bytes generalizing offset with
  | nil => rfl
  | cons byte bytes ih =>
    rw [List.length_cons] at none
    have first : ¬ chosen offset := none offset (Nat.le_refl _) (by omega)
    rw [withReturns, if_neg first, ih fun place low high => none place (by omega) (by omega)]
    rfl

/-! ## Newlines spelled with a return -/

/-- Whether a lexeme is a chosen line feed. -/
def Lexeme.isReplaced (chosen : Nat → Bool) (lexeme : Lexeme) : Bool :=
  lexeme.kind == .newline && lexeme.bytes == [Byte.lineFeed] && chosen lexeme.span.start

/-- A lexeme is replaced exactly if it is a chosen newline that is a lone line feed. -/
theorem Lexeme.isReplaced_iff {lexeme : Lexeme} : lexeme.isReplaced chosen ↔
    lexeme.kind = .newline ∧ lexeme.bytes = [Byte.lineFeed] ∧ chosen lexeme.span.start := by
  simp [isReplaced, and_assoc]

namespace Respelling

/-- Chosen line feeds with a return, and all other tokens as they are. -/
def lineBreaks (chosen : Nat → Bool) : Respelling where
  kind lexeme := lexeme.kind
  bytes lexeme :=
    if lexeme.isReplaced chosen then [Byte.carriageReturn, Byte.lineFeed] else lexeme.bytes
  shape {lexeme rest other} shape follows := by
    split
    · next replaced =>
      rw [(Lexeme.isReplaced_iff.mp replaced).1]
      exact Or.inr rfl
    · exact shape.of_follows follows
  follows {lexeme rest other} inner shape follows := by
    split
    · next replaced =>
      rw [(Lexeme.isReplaced_iff.mp replaced).2.1]
      -- a literal ends before either line break
      exact ⟨nofun, nofun, fun _ => Or.inr (Or.inr (List.prefix_append _ other))⟩
    · exact shape.follows inner other
  eof_iff := Iff.rfl
  newline_iff := Iff.rfl
  length_le lexeme := by
    split
    · next replaced =>
      rw [(Lexeme.isReplaced_iff.mp replaced).2.1]
      decide
    · exact Nat.le_refl _
  length_eq {lexeme} other := by
    rw [if_neg (fun replaced => other (Lexeme.isReplaced_iff.mp replaced).1)]

variable {lexeme : Lexeme}

/-- A newline that is replaced has a return and a line feed. -/
theorem bytes_lineBreaks_of_replaced (replaced : lexeme.isReplaced chosen) :
    (lineBreaks chosen).bytes lexeme = [Byte.carriageReturn, Byte.lineFeed] :=
  if_pos replaced

/-- A lexeme that is not replaced keeps its bytes. -/
theorem bytes_lineBreaks_of_not_replaced (kept : ¬ lexeme.isReplaced chosen) :
    (lineBreaks chosen).bytes lexeme = lexeme.bytes :=
  if_neg kept

/-- A chosen line feed becomes longer by its return. -/
theorem growth_lineBreaks (lexeme : Lexeme) :
    (lineBreaks chosen).growth lexeme = if lexeme.isReplaced chosen then 1 else 0 := by
  rw [growth]
  split
  · next replaced =>
    rw [bytes_lineBreaks_of_replaced replaced, (Lexeme.isReplaced_iff.mp replaced).2.1]
    rfl
  · next kept => rw [bytes_lineBreaks_of_not_replaced kept, Nat.sub_self]

end Respelling

/-! ## Bytes and lexemes -/

namespace ChoosesLineFeeds

variable {offset : Nat} {first : Lexeme} {others : List Lexeme}

/-- No byte before the end of the first lexeme is chosen, unless the lexeme is a line feed and
begins with it. -/
theorem isReplaced_first (chooses : ChoosesLineFeeds chosen offset (first :: others))
    (later : ∀ lexeme ∈ others, first.span.stop ≤ lexeme.span.start) {place : Nat}
    (low : offset ≤ place) (high : place < first.span.stop) (taken : chosen place) :
    place = first.span.start ∧ first.isReplaced chosen := by
  obtain ⟨lexeme, mem, newline, lineFeed, rfl⟩ := chooses place low taken
  rcases List.mem_cons.mp mem with rfl | behind
  · exact ⟨rfl, Lexeme.isReplaced_iff.mpr ⟨newline, lineFeed, taken⟩⟩
  · exact absurd high (Nat.not_lt.mpr (later lexeme behind))

/-- Behind the first lexeme, every chosen byte is a newline among the others. -/
theorem tail (chooses : ChoosesLineFeeds chosen offset (first :: others)) {stop : Nat}
    (low : offset ≤ stop) (inside : first.span.start < stop) :
    ChoosesLineFeeds chosen stop others := by
  intro place behind taken
  obtain ⟨lexeme, mem, found⟩ := chooses place (low.trans behind) taken
  rcases List.mem_cons.mp mem with rfl | mem
  · omega
  · exact ⟨lexeme, mem, found⟩

section

variable (chooses : ChoosesLineFeeds chosen offset (first :: others))
  (later : ∀ lexeme ∈ others, first.span.stop ≤ lexeme.span.start)
include chooses later

/-- What stands in front of the first lexeme stays. -/
theorem withReturns_gap {gap : Bytes} (start : first.span.start = offset + gap.length)
    (stop : first.span.start ≤ first.span.stop) : withReturns chosen offset gap = gap := by
  apply withReturns_of_not_chosen
  intro place low high taken
  rw [← start] at high
  have same := (chooses.isReplaced_first later low (high.trans_le stop) taken).1
  exact absurd same high.ne

/-- The first lexeme is given a return where it is a chosen line feed. -/
theorem withReturns_bytes (start : offset ≤ first.span.start)
    (stop : first.span.stop = first.span.start + first.bytes.length) :
    withReturns chosen first.span.start first.bytes =
      (Respelling.lineBreaks chosen).bytes first := by
  by_cases replaced : first.isReplaced chosen
  · obtain ⟨-, lineFeed, taken⟩ := Lexeme.isReplaced_iff.mp replaced
    rw [Respelling.bytes_lineBreaks_of_replaced replaced, lineFeed, withReturns, if_pos taken]
    rfl
  · rw [Respelling.bytes_lineBreaks_of_not_replaced replaced]
    apply withReturns_of_not_chosen
    intro place low high taken
    rw [← stop] at high
    exact replaced (chooses.isReplaced_first later (start.trans low) high taken).2

end

end ChoosesLineFeeds

/-- **Spelling the newlines anew puts a return in front of each chosen byte.** -/
theorem spelled_lineBreaks {offset : Nat} {input : Bytes} {found : List Lexeme}
    (tiled : Tiled offset input found) (chooses : ChoosesLineFeeds chosen offset found)
    (front : Bytes) (length : front.length = offset) :
    (Respelling.lineBreaks chosen).spelled (front ++ input) offset found =
      withReturns chosen offset input := by
  induction tiled generalizing front with
  | @eof offset gap last _ kind bytes span =>
    have start : last.span.start = front.length + gap.length := by rw [span, length]
    have cut := (Respelling.lineBreaks chosen).spelled_cons front gap [] [] start
    have kept : withReturns chosen offset gap = gap :=
      chooses.withReturns_gap (List.forall_mem_nil _) (by rw [span]) (by rw [span])
    rw [Respelling.bytes_eq_nil _ kind bytes, length] at cut
    simpa [Respelling.spelled, kept] using cut
  | @token offset gap rest first others _ _ bytes span tail ih =>
    have taken := List.length_pos_iff.mpr bytes
    have start : first.span.start = offset + gap.length := by rw [span]
    have stop : first.span.stop = first.span.start + first.bytes.length := by rw [span]
    have later : ∀ lexeme ∈ others, first.span.stop ≤ lexeme.span.start := by
      rw [stop, start]
      exact tail.offset_le_start
    have cut := (Respelling.lineBreaks chosen).spelled_cons front gap (first.bytes ++ rest) others
      (by rw [length, start])
    have gapKept := chooses.withReturns_gap later start (by omega)
    have spelled := chooses.withReturns_bytes later (by omega) stop
    have behind := ih (chooses.tail (by omega) (by omega)) (front ++ gap ++ first.bytes)
      (by simp [length, Nat.add_assoc])
    rw [← start, ← stop] at behind
    simp only [List.append_assoc] at behind
    rw [List.append_assoc gap, ← length, cut, behind, withReturns_append, withReturns_append,
      length, gapKept, ← start, spelled, ← stop, List.append_assoc]

namespace Tiled

variable {offset : Nat} {input : Bytes} {found : List Lexeme}

/-- The lexemes of a tiling begin one behind the other. -/
theorem starts_increasing (tiled : Tiled offset input found) :
    (found.map (·.span.start)).Pairwise (· < ·) := by
  rw [List.pairwise_map]
  apply tiled.pairwise.imp
  intro lexeme later order
  exact order.1.trans_le order.2

/-- Where a lexeme of a tiling begins tells which one it is. -/
theorem eq_of_start_eq (tiled : Tiled offset input found) {lexeme other : Lexeme}
    (mem : lexeme ∈ found) (mem' : other ∈ found) (same : lexeme.span.start = other.span.start) :
    lexeme = other :=
  List.inj_on_of_nodup_map tiled.starts_increasing.nodup mem mem' same

end Tiled

/-! ## Scans -/

section

variable {source : Bytes} (chooses : ChoosesLineFeeds chosen 0 (scan source))
include chooses

/-- A lexeme of the scan is replaced if its first byte is chosen. -/
theorem isReplaced_eq {lexeme : Lexeme} (mem : lexeme ∈ scan source) :
    lexeme.isReplaced chosen = chosen lexeme.span.start := by
  rw [Bool.eq_iff_iff, Lexeme.isReplaced_iff]
  refine ⟨fun replaced => replaced.2.2, fun taken => ?_⟩
  obtain ⟨other, mem', kind, bytes, same⟩ := chooses _ (Nat.zero_le _) taken
  have eq := (scan_tiled source).eq_of_start_eq mem' mem same
  exact ⟨eq ▸ kind, eq ▸ bytes, taken⟩

/-- The lexemes before an offset have become longer by the returns before it. -/
theorem grown_lineBreaks (offset : Nat) :
    (Respelling.lineBreaks chosen).grown (scan source) offset = returnsBefore chosen offset := by
  let replaced := ((scan source).filter (·.span.start < offset)).filter (·.isReplaced chosen)
  have places : replaced.map (·.span.start) = (List.range offset).filter chosen := by
    have increasing : (replaced.map (·.span.start)).Pairwise (· < ·) :=
      (scan_tiled source).starts_increasing.sublist
        ((List.filter_sublist.trans List.filter_sublist).map _)
    refine increasing.eq_of_mem_iff (List.pairwise_lt_range.filter _) fun place => ?_
    simp only [replaced, List.mem_map, List.mem_filter, decide_eq_true_eq, List.mem_range]
    constructor
    · rintro ⟨lexeme, ⟨⟨-, before⟩, chosen⟩, rfl⟩
      exact ⟨before, (Lexeme.isReplaced_iff.mp chosen).2.2⟩
    · rintro ⟨before, taken⟩
      obtain ⟨lexeme, mem, kind, bytes, rfl⟩ := chooses place (Nat.zero_le _) taken
      exact ⟨lexeme, ⟨⟨mem, before⟩, Lexeme.isReplaced_iff.mpr ⟨kind, bytes, taken⟩⟩, rfl⟩
  calc (Respelling.lineBreaks chosen).grown (scan source) offset
      = replaced.length := by
        rw [Respelling.grown, funext Respelling.growth_lineBreaks, List.sum_map_ite]
        simp [replaced]
    _ = ((List.range offset).filter chosen).length := by rw [← places, List.length_map]
    _ = returnsBefore chosen offset := List.countP_eq_length_filter.symm

/-- **The scan of a source with longer line breaks** is the scan of the source, each lexeme further
on by the returns before it. -/
theorem scan_withReturns :
    scan (withReturns chosen 0 source) = (scan source).map (Lexeme.withReturn chosen) := by
  have same : (Respelling.lineBreaks chosen).source source = withReturns chosen 0 source :=
    spelled_lineBreaks (scan_tiled source) chooses [] rfl
  rw [← same, Respelling.scan_source_eq_map]
  refine List.map_congr_left fun lexeme mem => ?_
  have bytes : (Respelling.lineBreaks chosen).bytes lexeme = (lexeme.withReturn chosen).bytes := by
    rw [Lexeme.withReturn, ← isReplaced_eq chooses mem]
    split
    · next replaced =>
      rw [Respelling.bytes_lineBreaks_of_replaced replaced,
        (Lexeme.isReplaced_iff.mp replaced).2.1]
    · next kept => exact Respelling.bytes_lineBreaks_of_not_replaced kept
  rw [Respelling.moved, grown_lineBreaks chooses, grown_lineBreaks chooses, bytes]
  rfl

variable {lexeme : Lexeme} (mem : lexeme ∈ scan source) (kind : lexeme.kind ≠ .newline)
include mem kind

/-- A lexeme that is no newline is not chosen. -/
theorem not_chosen_of_ne_newline : ¬ chosen lexeme.span.start := by
  rw [← isReplaced_eq chooses mem]
  intro replaced
  exact kind (Lexeme.isReplaced_iff.mp replaced).1

/-- Any token but a newline keeps its text. -/
theorem text_withReturn_of_ne_newline : (lexeme.withReturn chosen).text = lexeme.text :=
  congrArg Text.Utf8.decode (if_neg (not_chosen_of_ne_newline chooses mem kind))

/-- Any token but a newline is refused for the same failure. -/
theorem invalidToken_withReturn_of_ne_newline :
    (lexeme.withReturn chosen).invalidToken = lexeme.invalidToken := by
  have bytes : (lexeme.withReturn chosen).bytes = lexeme.bytes :=
    if_neg (not_chosen_of_ne_newline chooses mem kind)
  rw [Lexeme.invalidToken, bytes]
  rfl

end

end LinkScript
