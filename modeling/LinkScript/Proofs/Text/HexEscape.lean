import LinkScript.Proofs.Text.Ascii
import LinkScript.Bytes

/-!
# What escaped bytes look like, and how they are read back

* `IsPrintable` are the characters from space to tilde, and there are no others in escaped bytes
  (`isPrintable_of_mem_escape`).
* A byte other than the backslash reads back from what it is shown as, whatever follows
  (`unescape_escapeByte`).  So do all bytes of a string without a backslash (`unescape_escape`).
-/

namespace LinkScript.Text.HexEscape

/-- The characters from space to tilde. -/
def IsPrintable (c : Char) : Prop := 0x20 ≤ c.toNat ∧ c.toNat ≤ 0x7E

instance (c : Char) : Decidable (IsPrintable c) := inferInstanceAs (Decidable (_ ∧ _))

/-- The byte of the backslash, which `escape` does not mark. -/
def backslash : UInt8 := 0x5C

/-! ## Digits -/

/-- A digit is printable and is read as the number that it stands for. -/
theorem digit_spec : ∀ n < 16, IsPrintable (digit n) ∧ digitValue? (digit n) = some n := by
  decide

/-- The two digits of a byte make it up. -/
theorem ofDigits_byte (byte : UInt8) :
    (16 * (byte.toNat / 16) + byte.toNat % 16).toUInt8 = byte := by
  rw [Nat.div_add_mod]
  exact UInt8.ofNat_toNat

/-- A byte has two digits. -/
theorem byte_digits (byte : UInt8) : byte.toNat / 16 < 16 ∧ byte.toNat % 16 < 16 := by
  have small := byte.toNat_lt
  omega

/-! ## One byte -/

/-- The bytes that stand for themselves are those from space to tilde. -/
theorem isPlain_iff {byte : UInt8} : isPlain byte ↔ 0x20 ≤ byte.toNat ∧ byte.toNat ≤ 0x7E := by
  simp [isPlain, UInt8.le_iff_toNat_le]

/-- A byte is shown in printable characters. -/
theorem isPrintable_of_mem_escapeByte {byte : UInt8} {c : Char} (mem : c ∈ escapeByte byte) :
    IsPrintable c := by
  obtain ⟨high, low⟩ := byte_digits byte
  unfold escapeByte at mem
  split at mem
  · next plain =>
    rw [List.mem_singleton.mp mem, IsPrintable, Utf8.toNat_ofNat_byte]
    exact isPlain_iff.mp plain
  · have marks : IsPrintable '\\' ∧ IsPrintable 'x' := by decide
    simp only [byteDigits, List.mem_cons, List.not_mem_nil, or_false] at mem
    rcases mem with rfl | rfl | rfl | rfl
    · exact marks.1
    · exact marks.2
    · exact (digit_spec _ high).1
    · exact (digit_spec _ low).1

/-- A character that is no backslash is read as the byte of its code. -/
theorem unescape_cons {c : Char} (other : c ≠ '\\') (rest : List Char) :
    unescape (c :: rest) = c.toNat.toUInt8 :: unescape rest := by
  rw [unescape]
  rintro high low rest rfl
  exact absurd rfl other

/-- A group is read as one byte. -/
theorem unescape_group (byte : UInt8) (rest : List Char) :
    unescape ('\\' :: 'x' :: byteDigits byte ++ rest) = byte :: unescape rest := by
  obtain ⟨high, low⟩ := byte_digits byte
  simp only [byteDigits, List.cons_append, List.nil_append, unescape, (digit_spec _ high).2,
    (digit_spec _ low).2, ofDigits_byte]

/-- A byte other than the backslash reads back, whatever is shown behind it. -/
theorem unescape_escapeByte {byte : UInt8} (other : byte ≠ backslash) (rest : List Char) :
    unescape (escapeByte byte ++ rest) = byte :: unescape rest := by
  unfold escapeByte
  split
  · have code : (Char.ofNat byte.toNat).toNat = byte.toNat := Utf8.toNat_ofNat_byte byte
    have mark : Char.ofNat byte.toNat ≠ '\\' := by
      intro same
      apply other
      rw [same] at code
      exact UInt8.toNat_inj.mp code.symm
    rw [List.singleton_append, unescape_cons mark, code]
    exact congrArg (· :: _) UInt8.ofNat_toNat
  · exact unescape_group byte rest

/-! ## Byte strings -/

/-- A byte string is shown part by part. -/
theorem escape_append (front behind : Bytes) :
    escape (front ++ behind) = escape front ++ escape behind := by
  rw [escape, escapeChars, List.flatMap_append, String.ofList_append]
  rfl

/-- Escaped bytes are printable. -/
theorem isPrintable_of_mem_escape {bytes : Bytes} {c : Char} (mem : c ∈ (escape bytes).toList) :
    IsPrintable c := by
  rw [escape, String.toList_ofList] at mem
  obtain ⟨byte, -, shown⟩ := List.mem_flatMap.mp mem
  exact isPrintable_of_mem_escapeByte shown

/-- Bytes without a backslash read back. -/
theorem unescape_escape {bytes : Bytes} (plain : backslash ∉ bytes) :
    unescape (escape bytes).toList = bytes := by
  rw [escape, String.toList_ofList]
  induction bytes with
  | nil => rfl
  | cons byte bytes ih =>
    obtain ⟨other, plain⟩ := not_or.mp (mt List.mem_cons.mpr plain)
    rw [escapeChars, List.flatMap_cons, unescape_escapeByte (Ne.symm other)]
    exact congrArg (byte :: ·) (ih plain)

/-- So no two such byte strings are shown alike. -/
theorem escape_inj {bytes bytes' : Bytes} (plain : backslash ∉ bytes) (plain' : backslash ∉ bytes')
    (same : escape bytes = escape bytes') : bytes = bytes' := by
  rw [← unescape_escape plain, same, unescape_escape plain']

/-- With a backslash they may be: a carriage return and its group spelled out. -/
example : escape [0x0D] = escape [0x5C, 0x78, 0x30, 0x64] := by decide

end LinkScript.Text.HexEscape
