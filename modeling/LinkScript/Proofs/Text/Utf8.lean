import LinkScript.Bytes

/-!
# Decoding undoes encoding

The lenient decoder makes no mistakes on bytes that encode a text.

* `first_two`, `first_three` and `first_four` are the lead bytes of longer characters, `run_two`,
  `run_three` and `run_four` the characters they begin, and `run_encodeChar` is any character.
* `decodeKeepingMark_encode` reads a whole text back, and `decode_encode` does so where the text
  does not begin with a byte order mark.
* `toList_of_encode`, `mem_of_mem_encode`: a byte below 0x80 in the encoding is a character of the
  text.
-/

namespace LinkScript.Text.Utf8

/-! ## Bytes where a character begins -/

/-- An ASCII byte is a character. -/
theorem run_ascii {byte : UInt8} {rest : Bytes} (h : byte ≤ 0x7F) :
    run none (byte :: rest) = Char.ofNat byte.toNat :: run none rest := by
  simp only [run, step, first, h, if_true, List.singleton_append]

/-- The lead byte of two. -/
theorem first_two {byte : UInt8} (low : 0xC2 ≤ byte) (high : byte ≤ 0xDF) :
    first byte = ([], some ⟨byte.toNat - 0xC0, 1, 0x80, 0xBF⟩) := by
  unfold first
  grind

/-- The lead byte of three.  Overlong characters and surrogates are ruled out by the range of the
second one. -/
theorem first_three {byte : UInt8} (low : 0xE0 ≤ byte) (high : byte ≤ 0xEF) :
    first byte = ([], some ⟨byte.toNat - 0xE0, 2, if byte.toNat = 0xE0 then 0xA0 else 0x80,
      if byte.toNat = 0xED then 0x9F else 0xBF⟩) := by
  by_cases overlong : byte = 0xE0
  · subst overlong
    rfl
  by_cases surrogates : byte = 0xED
  · subst surrogates
    rfl
  have codes := And.intro (mt UInt8.toNat_inj.mp overlong) (mt UInt8.toNat_inj.mp surrogates)
  simp only [UInt8.reduceToNat] at codes
  unfold first
  grind

/-- The lead byte of four.  Overlong characters and codes above the last one are ruled out by the
range of the second one. -/
theorem first_four {byte : UInt8} (low : 0xF0 ≤ byte) (high : byte ≤ 0xF4) :
    first byte = ([], some ⟨byte.toNat - 0xF0, 3, if byte.toNat = 0xF0 then 0x90 else 0x80,
      if byte.toNat = 0xF4 then 0x8F else 0xBF⟩) := by
  by_cases overlong : byte = 0xF0
  · subst overlong
    rfl
  by_cases last : byte = 0xF4
  · subst last
    rfl
  have codes := And.intro (mt UInt8.toNat_inj.mp overlong) (mt UInt8.toNat_inj.mp last)
  simp only [UInt8.reduceToNat] at codes
  unfold first
  grind

/-- A lead byte opens a character. -/
theorem run_none_of_first {byte : UInt8} {rest : Bytes} {begun : Pending}
    (h : first byte = ([], some begun)) : run none (byte :: rest) = run (some begun) rest := by
  simp [run, step, h]

/-! ## Bytes that continue a character -/

section

variable {byte low high : UInt8} {rest : Bytes} {bits missing : Nat}

/-- A byte in range closes a character that needs one more. -/
theorem run_some_last (above : low ≤ byte) (below : byte ≤ high) :
    run (some ⟨bits, 1, low, high⟩) (byte :: rest) =
      Char.ofNat (bits * 64 + (byte.toNat - 0x80)) :: run none rest := by
  simp [run, step, above, below]

/-- A byte in range continues a character that needs several more. -/
theorem run_some_more (above : low ≤ byte) (below : byte ≤ high) :
    run (some ⟨bits, missing + 2, low, high⟩) (byte :: rest) =
      run (some ⟨bits * 64 + (byte.toNat - 0x80), missing + 1, 0x80, 0xBF⟩) rest := by
  simp [run, step, above, below]

end

/-! ## One character -/

section

variable {code : Nat} {one two three four : UInt8}

/-- Two bytes are read as the character whose code they share. -/
theorem run_two (rest : Bytes) (low : 0x80 ≤ code) (high : code ≤ 0x7FF)
    (h₁ : one.toNat = code / 64 + 0xC0) (h₂ : two.toNat = code % 64 + 0x80) :
    run none (one :: two :: rest) = Char.ofNat code :: run none rest := by
  have bits : (one.toNat - 0xC0) * 64 + (two.toNat - 0x80) = code := by omega
  rw [run_none_of_first (first_two _ _), run_some_last _ _, bits]
  all_goals
    simp only [UInt8.le_iff_toNat_le, h₁, h₂, UInt8.reduceToNat]
    omega

/-- Three bytes are read as the character whose code they share. -/
theorem run_three (rest : Bytes) (low : 0x800 ≤ code) (high : code ≤ 0xFFFF)
    (scalar : code < 0xD800 ∨ 0xDFFF < code) (h₁ : one.toNat = code / 4096 + 0xE0)
    (h₂ : two.toNat = code / 64 % 64 + 0x80) (h₃ : three.toNat = code % 64 + 0x80) :
    run none (one :: two :: three :: rest) = Char.ofNat code :: run none rest := by
  have bits : ((one.toNat - 0xE0) * 64 + (two.toNat - 0x80)) * 64 + (three.toNat - 0x80) =
      code := by omega
  have above : (if one.toNat = 0xE0 then 0xA0 else 0x80) ≤ two := by
    split <;> simp only [UInt8.le_iff_toNat_le, UInt8.reduceToNat] <;> omega
  have below : two ≤ if one.toNat = 0xED then 0x9F else 0xBF := by
    split <;> simp only [UInt8.le_iff_toNat_le, UInt8.reduceToNat] <;> omega
  rw [run_none_of_first (first_three _ _), run_some_more above below, run_some_last _ _, bits]
  all_goals
    simp only [UInt8.le_iff_toNat_le, h₁, h₃, UInt8.reduceToNat]
    omega

/-- Four bytes are read as the character whose code they share. -/
theorem run_four (rest : Bytes) (low : 0x10000 ≤ code) (high : code < 0x110000)
    (h₁ : one.toNat = code / 262144 + 0xF0) (h₂ : two.toNat = code / 4096 % 64 + 0x80)
    (h₃ : three.toNat = code / 64 % 64 + 0x80) (h₄ : four.toNat = code % 64 + 0x80) :
    run none (one :: two :: three :: four :: rest) = Char.ofNat code :: run none rest := by
  have bits : (((one.toNat - 0xF0) * 64 + (two.toNat - 0x80)) * 64 + (three.toNat - 0x80)) * 64 +
      (four.toNat - 0x80) = code := by omega
  have above : (if one.toNat = 0xF0 then 0x90 else 0x80) ≤ two := by
    split <;> simp only [UInt8.le_iff_toNat_le, UInt8.reduceToNat] <;> omega
  have below : two ≤ if one.toNat = 0xF4 then 0x8F else 0xBF := by
    split <;> simp only [UInt8.le_iff_toNat_le, UInt8.reduceToNat] <;> omega
  rw [run_none_of_first (first_four _ _), run_some_more above below, run_some_more _ _,
    run_some_last _ _, bits]
  all_goals
    simp only [UInt8.le_iff_toNat_le, h₁, h₃, h₄, UInt8.reduceToNat]
    omega

end

/-- A character is read back from its bytes. -/
theorem run_encodeChar (char : Char) (rest : Bytes) :
    run none (String.utf8EncodeChar char ++ rest) = char :: run none rest := by
  have scalar : char.val.toNat < 0xD800 ∨ 0xDFFF < char.val.toNat ∧ char.val.toNat < 0x110000 :=
    char.valid
  have same : Char.ofNat char.val.toNat = char := Char.ofNat_toNat char
  unfold String.utf8EncodeChar
  dsimp only
  generalize char.val.toNat = code at scalar same
  rw [← same]
  split
  · next ascii =>
    have byte : (UInt8.ofNat code).toNat = code := by
      rw [UInt8.toNat_ofNat']
      omega
    have low : UInt8.ofNat code ≤ 0x7F := UInt8.le_iff_toNat_le.mpr (byte.symm ▸ ascii)
    rw [List.singleton_append, run_ascii low, byte]
  split
  · exact run_two rest (by omega) (by omega) (by rw [UInt8.toNat_ofNat']; omega)
      (by rw [UInt8.toNat_ofNat']; omega)
  split
  · exact run_three rest (by omega) (by omega) (by omega) (by rw [UInt8.toNat_ofNat']; omega)
      (by rw [UInt8.toNat_ofNat']; omega) (by rw [UInt8.toNat_ofNat']; omega)
  · exact run_four rest (by omega) (by omega) (by rw [UInt8.toNat_ofNat']; omega)
      (by rw [UInt8.toNat_ofNat']; omega) (by rw [UInt8.toNat_ofNat']; omega)
      (by rw [UInt8.toNat_ofNat']; omega)

/-! ## Whole texts -/

/-- The bytes of a join are the bytes of its parts. -/
@[simp] theorem encode_append (front back : String) :
    encode (front ++ back) = encode front ++ encode back := by
  simp [encode]

/-- A text is read back from its bytes, whatever follows them. -/
theorem run_encode (text : String) (rest : Bytes) :
    run none (encode text ++ rest) = text.toList ++ run none rest := by
  unfold encode
  induction text.toList with
  | nil => rfl
  | cons char chars ih =>
    rw [List.flatMap_cons, List.append_assoc, run_encodeChar, ih, List.cons_append]

/-- A byte below 0x80 at the front of the encoding is the first character. -/
theorem toList_of_encode {text : String} {byte : UInt8} {rest : Bytes}
    (bytes : encode text = byte :: rest) (ascii : byte ≤ 0x7F) :
    text.toList = Char.ofNat byte.toNat :: run none rest := by
  have whole := run_encode text []
  rw [List.append_nil, bytes, run_ascii ascii, show run none [] = [] from rfl,
    List.append_nil] at whole
  exact whole.symm

/-- **Decoding undoes encoding**, if a byte order mark is kept. -/
theorem decodeKeepingMark_encode (text : String) : decodeKeepingMark (encode text) = text := by
  have whole := run_encode text []
  rw [List.append_nil, show run none [] = [] from rfl, List.append_nil] at whole
  rw [decodeKeepingMark, whole, String.ofList_toList]

/-- The bytes of a text begin with a byte order mark only if the text does. -/
theorem head?_of_startsWith_mark {text : String} (h : (encode text).startsWith byteOrderMark) :
    text.toList.head? = some '\uFEFF' := by
  obtain ⟨rest, bytes⟩ := List.isPrefixOf_iff_prefix.mp h
  have whole := decodeKeepingMark_encode text
  rw [← bytes] at whole
  rw [← whole]
  simp [decodeKeepingMark, byteOrderMark, run, step, first]

/-- Decoding undoes encoding for a text that does not begin with a byte order mark. -/
theorem decode_encode {text : String} (h : text.toList.head? ≠ some '\uFEFF') :
    decode (encode text) = text := by
  rw [decode, if_neg (mt head?_of_startsWith_mark h), decodeKeepingMark_encode]

/-- A byte below 0x80 in the encoding of a character is that character. -/
theorem eq_of_mem_encodeChar {char : Char} {byte : UInt8} (h : byte ∈ String.utf8EncodeChar char)
    (ascii : byte ≤ 0x7F) : Char.ofNat byte.toNat = char := by
  have same : Char.ofNat char.val.toNat = char := Char.ofNat_toNat char
  simp only [UInt8.le_iff_toNat_le, UInt8.reduceToNat] at ascii
  unfold String.utf8EncodeChar at h
  dsimp only at h
  split at h
  · rw [List.mem_singleton.mp h, UInt8.toNat_ofNat', Nat.mod_eq_of_lt (by omega), same]
  have long : 0x80 ≤ byte.toNat := by
    split at h
    · simp only [List.mem_cons, List.not_mem_nil, or_false] at h
      rcases h with rfl | rfl <;> rw [UInt8.toNat_ofNat'] <;> omega
    split at h
    · simp only [List.mem_cons, List.not_mem_nil, or_false] at h
      rcases h with rfl | rfl | rfl <;> rw [UInt8.toNat_ofNat'] <;> omega
    · simp only [List.mem_cons, List.not_mem_nil, or_false] at h
      rcases h with rfl | rfl | rfl | rfl <;> rw [UInt8.toNat_ofNat'] <;> omega
  omega

/-- A byte below 0x80 in the encoding of a text is a character of the text. -/
theorem mem_of_mem_encode {text : String} {byte : UInt8} (h : byte ∈ encode text)
    (ascii : byte ≤ 0x7F) : Char.ofNat byte.toNat ∈ text.toList := by
  obtain ⟨char, mem, part⟩ := List.mem_flatMap.mp h
  rw [eq_of_mem_encodeChar part ascii]
  exact mem

end LinkScript.Text.Utf8
