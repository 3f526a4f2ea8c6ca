import LinkScript.Proofs.Text.Utf8

/-!
# Texts below U+0080

A lenient decoder takes many byte strings for one text.  A text of characters below U+0080 is
another matter: longer characters and mistakes all come out above, so each of its characters was a
byte of its own, and only a byte order mark can have been dropped.

* `run_some_of_long`: once a character of several bytes has begun, something above U+007F comes
  out, whatever follows.
* `mem_of_mem_decode`: a character below U+0080 in a decoded text was a byte of its own.
* `decode_eq_iff`: a text of characters below U+0080 has one spelling, with a byte order mark in
  front or without.

A character above U+007F has no byte below 0x80 in its encoding either, so a cut that has such a
byte on either side goes through no character.

* `BesideAscii front back` is such a cut, or a cut at an end.
* `exists_encode_of_append`: it cuts the encoding of a text into the encodings of two texts.
* `IsBoundary text offset` is a place between two characters of a text, as an offset into its bytes.
-/

namespace LinkScript.Text.Utf8

/-! ## Characters that have begun -/

/-- The characters from U+0001 to U+007F.  The decoder writes U+0000 for codes of no character. -/
def IsAscii (char : Char) : Prop := 0 < char.toNat ∧ char.toNat < 0x80

instance (char : Char) : Decidable (IsAscii char) := inferInstanceAs (Decidable (_ ∧ _))

/-- The least code that a character that has begun can come to with one byte more. -/
def Pending.least (begun : Pending) : Nat := begun.bits * 64 + (begun.low.toNat - 0x80)

/-- A character that has begun and can only become one above U+007F.  A code of 2 is enough where
more than one byte is missing, since each further byte multiplies it by 64. -/
def Pending.Long (begun : Pending) : Prop :=
  0x80 ≤ begun.low.toNat ∧ 2 ≤ begun.least ∧ (begun.missing ≤ 1 → 0x80 ≤ begun.least)

/-- Every lead byte opens such a character. -/
theorem long_of_first {byte : UInt8} {chars : List Char} {begun : Pending}
    (h : first byte = (chars, some begun)) : begun.Long := by
  have lead : (0xC2 ≤ byte ∧ byte ≤ 0xDF) ∨ (0xE0 ≤ byte ∧ byte ≤ 0xEF) ∨
      (0xF0 ≤ byte ∧ byte ≤ 0xF4) := by
    unfold first at h
    grind
  unfold Pending.Long Pending.least
  rcases lead with ⟨low, high⟩ | ⟨low, high⟩ | ⟨low, high⟩
  · rw [first_two low high] at h
    simp only [Prod.mk.injEq, Option.some.injEq] at h
    simp only [UInt8.le_iff_toNat_le, UInt8.reduceToNat] at low
    simp only [← h.2, UInt8.reduceToNat]
    omega
  · rw [first_three low high] at h
    simp only [Prod.mk.injEq, Option.some.injEq] at h
    simp only [UInt8.le_iff_toNat_le, UInt8.reduceToNat] at low
    simp only [← h.2]
    split <;> simp only [UInt8.reduceToNat] <;> omega
  · rw [first_four low high] at h
    simp only [Prod.mk.injEq, Option.some.injEq] at h
    simp only [UInt8.le_iff_toNat_le, UInt8.reduceToNat] at low
    simp only [← h.2]
    split <;> simp only [UInt8.reduceToNat] <;> omega

/-- The code of a byte is that of the character with this code. -/
theorem toNat_ofNat_byte (byte : UInt8) : (Char.ofNat byte.toNat).toNat = byte.toNat := by
  have small := byte.toNat_lt
  unfold Char.ofNat
  rw [dif_pos (Or.inl (by omega))]
  rfl

/-- A code above U+007F gives no character from U+0001 to U+007F. -/
theorem not_isAscii_ofNat {code : Nat} (h : 0x80 ≤ code) : ¬ IsAscii (Char.ofNat code) := by
  unfold IsAscii
  unfold Char.ofNat
  by_cases valid : code.isValidChar
  · rw [dif_pos valid]
    show ¬ (0 < code ∧ code < 0x80)
    omega
  · rw [dif_neg valid]
    decide

/-- A byte that continues such a character makes it greater: it comes to a code above U+007F, or goes
on as such a character. -/
theorem Pending.Long.further {begun : Pending} (long : begun.Long) {byte : UInt8}
    (fits : begun.low ≤ byte) :
    (begun.missing ≤ 1 → 0x80 ≤ begun.bits * 64 + (byte.toNat - 0x80)) ∧
      Pending.Long ⟨begun.bits * 64 + (byte.toNat - 0x80), begun.missing - 1, 0x80, 0xBF⟩ := by
  have above := UInt8.le_iff_toNat_le.mp fits
  have grows : begun.least ≤ begun.bits * 64 + (byte.toNat - 0x80) := by
    unfold Pending.least
    omega
  have two := Nat.le_trans long.2.1 grows
  refine ⟨fun last => Nat.le_trans (long.2.2 last) grows, ?_⟩
  unfold Pending.Long Pending.least
  simp only [UInt8.reduceToNat]
  omega

/-- Whatever follows, a character that has begun comes out above U+007F or as a mistake. -/
theorem run_some_of_long {begun : Pending} (long : begun.Long) (bytes : Bytes) :
    ∃ char chars, run (some begun) bytes = char :: chars ∧ ¬ IsAscii char := by
  induction bytes generalizing begun with
  | nil => exact ⟨replacement, [], rfl, by decide⟩
  | cons byte rest ih =>
    by_cases fits : begun.low ≤ byte ∧ byte ≤ begun.high
    · obtain ⟨closes, further⟩ := long.further fits.1
      by_cases last : begun.missing ≤ 1
      · exact ⟨_, run none rest, by simp [run, step, fits, last], not_isAscii_ofNat (closes last)⟩
      · obtain ⟨char, chars, out, other⟩ := ih further
        refine ⟨char, chars, ?_, other⟩
        simpa [run, step, fits, last] using out
    · exact ⟨replacement, (first byte).1 ++ run (first byte).2 rest, by simp [run, step, fits],
        by decide⟩

/-! ## Characters of decoded text -/

/-- Where a character may begin, a byte comes out as itself, as a mistake, or not yet. -/
theorem eq_of_mem_first {byte : UInt8} {char : Char} (mem : char ∈ (first byte).1)
    (ascii : IsAscii char) : char = Char.ofNat byte.toNat := by
  by_cases low : byte ≤ 0x7F
  · rw [first, if_pos low] at mem
    exact List.mem_singleton.mp mem
  · have mistake : char = replacement := by
      unfold first at mem
      grind
    rw [mistake] at ascii
    exact absurd ascii (by decide)

/-- One byte completes no character below U+0080 but its own, and opens only characters that come
out above. -/
theorem step_of_long {state : Option Pending} (long : ∀ begun ∈ state, begun.Long) (byte : UInt8) :
    (∀ char ∈ (step state byte).1, IsAscii char → char = Char.ofNat byte.toNat) ∧
      ∀ begun ∈ (step state byte).2, begun.Long := by
  have opens : ∀ begun ∈ (first byte).2, begun.Long := by
    intro begun mem
    have opened : first byte = ((first byte).1, some begun) := Prod.ext rfl mem
    exact long_of_first opened
  cases state with
  | none => exact ⟨fun _ mem ascii => eq_of_mem_first mem ascii, opens⟩
  | some begun =>
    by_cases fits : begun.low ≤ byte ∧ byte ≤ begun.high
    · obtain ⟨closes, further⟩ := (long begun rfl).further fits.1
      by_cases last : begun.missing ≤ 1
      · simp only [step, fits, last, and_self, if_true, List.mem_singleton, forall_eq]
        exact ⟨fun ascii => absurd ascii (not_isAscii_ofNat (closes last)), by simp⟩
      · simp only [step, fits, last, and_self, if_true, if_false]
        exact ⟨by simp, by simpa using further⟩
    · simp only [step, fits, if_false]
      refine ⟨fun char mem ascii => ?_, opens⟩
      rcases List.mem_cons.mp mem with rfl | here
      · exact absurd ascii (by decide)
      · exact eq_of_mem_first here ascii

/-- **A character from U+0001 to U+007F comes from the byte of its code**, whatever bytes stand
around it. -/
theorem mem_of_mem_run {state : Option Pending} (long : ∀ begun ∈ state, begun.Long)
    {bytes : Bytes} {char : Char} (mem : char ∈ run state bytes) (ascii : IsAscii char) :
    ∃ byte ∈ bytes, byte.toNat = char.toNat := by
  induction bytes generalizing state with
  | nil =>
    cases state with
    | none => simp [run] at mem
    | some begun =>
      rw [List.mem_singleton.mp mem] at ascii
      exact absurd ascii (by decide)
  | cons byte rest ih =>
    obtain ⟨here, further⟩ := step_of_long long byte
    rw [run] at mem
    rcases List.mem_append.mp mem with completed | behind
    · refine ⟨byte, List.mem_cons_self, ?_⟩
      rw [here char completed ascii]
      exact (toNat_ofNat_byte byte).symm
    · obtain ⟨found, later, code⟩ := ih further behind
      exact ⟨found, List.mem_cons_of_mem _ later, code⟩

/-- A character from U+0001 to U+007F of a decoded text comes from the byte of its code. -/
theorem mem_of_mem_decode {bytes : Bytes} {char : Char} (mem : char ∈ (decode bytes).toList)
    (ascii : IsAscii char) : ∃ byte ∈ bytes, byte.toNat = char.toNat := by
  rw [decode, decodeKeepingMark, String.toList_ofList] at mem
  obtain ⟨byte, within, code⟩ := mem_of_mem_run (by simp) mem ascii
  refine ⟨byte, ?_, code⟩
  split at within
  · exact List.mem_of_mem_drop within
  · exact within

/-! ## Spellings -/

/-- A code below U+0080 is the only byte of its character. -/
theorem encodeChar_ofNat {byte : UInt8} (h : byte ≤ 0x7F) :
    String.utf8EncodeChar (Char.ofNat byte.toNat) = [byte] := by
  have low : byte.toNat ≤ 0x7F := UInt8.le_iff_toNat_le.mp h
  have code : (Char.ofNat byte.toNat).val.toNat = byte.toNat := toNat_ofNat_byte byte
  unfold String.utf8EncodeChar
  dsimp only
  rw [code, if_pos low, UInt8.ofNat_toNat]

/-- Characters from U+0001 to U+007F come from the bytes of their codes. -/
theorem eq_flatMap_of_run {bytes : Bytes} {chars : List Char} (ascii : ∀ char ∈ chars, IsAscii char)
    (h : run none bytes = chars) : bytes = chars.flatMap String.utf8EncodeChar := by
  induction bytes generalizing chars with
  | nil =>
    subst h
    rfl
  | cons byte rest ih =>
    by_cases low : byte ≤ 0x7F
    · rw [run_ascii low] at h
      subst h
      obtain ⟨-, behind⟩ := List.forall_mem_cons.mp ascii
      rw [List.flatMap_cons, ← ih behind rfl]
      rw [encodeChar_ofNat low, List.singleton_append]
    · exfalso
      cases opens : first byte with
      | mk out next =>
        have whole : chars = out ++ run next rest := by
          rw [← h]
          simp only [run, step, opens]
        cases next with
        | none =>
          have mistake : replacement ∈ out := by
            unfold first at opens
            grind
          have here : replacement ∈ chars := whole ▸ List.mem_append_left _ mistake
          exact absurd (ascii replacement here) (by decide)
        | some begun =>
          obtain ⟨char, behind, out', other⟩ := run_some_of_long (long_of_first opens) rest
          have here : char ∈ chars := by simp [whole, out']
          exact other (ascii char here)

/-- **A text of such characters has one spelling**, apart from a byte order mark in front. -/
theorem decode_eq_iff {text : String} (ascii : ∀ char ∈ text.toList, IsAscii char)
    {bytes : Bytes} :
    decode bytes = text ↔ bytes = encode text ∨ bytes = byteOrderMark ++ encode text := by
  have spelled : ∀ {bytes : Bytes}, decodeKeepingMark bytes = text → bytes = encode text := by
    intro bytes h
    apply eq_flatMap_of_run ascii
    rw [← h, decodeKeepingMark, String.toList_ofList]
  have unmarked : text.toList.head? ≠ some '\uFEFF' := by
    intro mark
    exact absurd (ascii _ (List.mem_of_mem_head? mark)) (by decide)
  constructor
  · intro h
    unfold decode at h
    split at h
    · next marked =>
      obtain ⟨rest, rfl⟩ := List.isPrefixOf_iff_prefix.mp marked
      right
      rw [← spelled h]
      rfl
    · exact Or.inl (spelled h)
  · rintro (rfl | rfl)
    · exact decode_encode unmarked
    · have marked : (byteOrderMark ++ encode text).startsWith byteOrderMark := by
        apply List.isPrefixOf_iff_prefix.mpr
        exact List.prefix_append _ _
      rw [decode, if_pos marked]
      exact decodeKeepingMark_encode text

/-! ## Cuts between characters -/

/-- A cut with nothing on one side, or with a byte below 0x80 on one side. -/
def BesideAscii (front back : Bytes) : Prop :=
  ∀ last ∈ front.getLast?, ∀ first ∈ back.head?, last ≤ 0x7F ∨ first ≤ 0x7F

/-- A cut behind a byte below 0x80. -/
theorem BesideAscii.of_getLast? {front back : Bytes} {byte : UInt8}
    (last : front.getLast? = some byte) (ascii : byte ≤ 0x7F) : BesideAscii front back := by
  intro found mem _ _
  obtain rfl := Option.some.inj (last.symm.trans mem)
  exact Or.inl ascii

/-- A byte below 0x80 is the whole encoding of a character it belongs to. -/
theorem length_encodeChar_of_mem {char : Char} {byte : UInt8}
    (mem : byte ∈ String.utf8EncodeChar char) (ascii : byte ≤ 0x7F) :
    (String.utf8EncodeChar char).length = 1 := by
  rw [← eq_of_mem_encodeChar mem ascii, encodeChar_ofNat ascii, List.length_singleton]

/-- Characters are cut apart by such a cut. -/
theorem exists_flatMap_of_append {chars : List Char} {front back : Bytes}
    (whole : chars.flatMap String.utf8EncodeChar = front ++ back) (cut : BesideAscii front back) :
    ∃ before behind, chars = before ++ behind ∧ before.flatMap String.utf8EncodeChar = front ∧
      behind.flatMap String.utf8EncodeChar = back := by
  induction chars generalizing front with
  | nil =>
    obtain ⟨rfl, rfl⟩ := List.append_eq_nil_iff.mp whole.symm
    exact ⟨[], [], rfl, rfl, rfl⟩
  | cons char chars ih =>
    rw [List.flatMap_cons] at whole
    rcases List.append_eq_append_iff.mp whole with ⟨further, rfl, tail⟩ | ⟨inside, first, rfl⟩
    · -- the cut comes behind this character
      have cut' : BesideAscii further back := by
        intro last mem first head
        refine cut last ?_ first head
        rw [Option.mem_def, List.getLast?_append, Option.mem_def.mp mem, Option.some_or]
      obtain ⟨before, behind, rfl, rfl, rfl⟩ := ih tail cut'
      exact ⟨char :: before, behind, rfl, rfl, rfl⟩
    · -- the cut comes within this character, at one of its ends
      rcases List.eq_nil_or_concat front with rfl | ⟨others, last, rfl⟩
      · exact ⟨[], char :: chars, rfl, rfl, by rw [List.flatMap_cons, first, List.nil_append]⟩
      · cases inside with
        | nil =>
          rw [List.append_nil] at first
          exact ⟨[char], chars, rfl, by rw [List.flatMap_singleton, first], rfl⟩
        | cons next more =>
          exfalso
          rw [List.concat_eq_append] at first cut
          have long : (String.utf8EncodeChar char).length ≠ 1 := by
            rw [first]
            simp only [List.length_append, List.length_cons]
            omega
          rcases cut last (by simp) next (by simp) with ascii | ascii
          · exact long (length_encodeChar_of_mem (by simp [first]) ascii)
          · exact long (length_encodeChar_of_mem (by simp [first]) ascii)

/-- **A cut beside a byte below 0x80 goes between two characters.** -/
theorem exists_encode_of_append {text : String} {front back : Bytes}
    (whole : encode text = front ++ back) (cut : BesideAscii front back) :
    ∃ before behind, text = before ++ behind ∧ encode before = front ∧ encode behind = back := by
  obtain ⟨before, behind, chars, rfl, rfl⟩ := exists_flatMap_of_append whole cut
  refine ⟨String.ofList before, String.ofList behind, ?_, ?_, ?_⟩
  · rw [← String.ofList_append, ← chars, String.ofList_toList]
  · rw [encode, String.toList_ofList]
  · rw [encode, String.toList_ofList]

/-- An offset into the bytes of a text at which no character is under way. -/
def IsBoundary (text : String) (offset : Nat) : Prop :=
  ∃ front back, text = front ++ back ∧ (encode front).length = offset

/-- No two texts have the same bytes. -/
theorem encode_injective : Function.Injective encode := by
  intro one other same
  rw [← decodeKeepingMark_encode one, same, decodeKeepingMark_encode]

end LinkScript.Text.Utf8
