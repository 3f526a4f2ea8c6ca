import LinkScript.Json.Read

/-!
# Numbers read back as they are written

A number is written in one of four forms, and the reader has to find the same number in each.  What
the forms have in common is a `Numeral`: a whole part, perhaps a fraction, perhaps a power of ten.

* `readMagnitude_numeral`: every numeral is read as its value, in front of anything that does not
  continue it.
* `exists_numeral`: each of the four forms is a numeral with the right value.
* `readNumber_chars` puts the two together.

Whole numbers are got back from decimals (`Decimal.toNat?_ofNat`, `Decimal.toInt?_ofInt`).
-/

namespace LinkScript

/-! ## Zeros at the end -/

namespace Decimal

/-- Digits that end in no zero are kept. -/
theorem stripZeros_of_mod_ne_zero {digits : Nat} (exponent : Int) (last : digits % 10 ≠ 0) :
    stripZeros digits exponent = (digits, exponent) := by
  rw [stripZeros, dif_neg (by omega)]

/-- Zeros put at the end are taken away again, and the power of ten makes up for them. -/
theorem stripZeros_mul_pow {digits : Nat} (nonzero : digits ≠ 0) (count : Nat) (exponent : Int) :
    stripZeros (digits * Nat.pow 10 count) exponent = stripZeros digits (exponent + count) := by
  induction count generalizing exponent with
  | zero => simp
  | succ count ih =>
    have shorter : digits * Nat.pow 10 (count + 1) = digits * Nat.pow 10 count * 10 :=
      (Nat.mul_assoc digits (Nat.pow 10 count) 10).symm
    have positive : digits * Nat.pow 10 count ≠ 0 :=
      Nat.mul_ne_zero nonzero (Nat.ne_of_gt (Nat.pow_pos (by decide)))
    rw [stripZeros, dif_pos (by omega), shorter, Nat.mul_div_cancel _ (by decide), ih]
    congr 1
    omega

/-- Zeros at the end of the digits are a power of ten. -/
theorem of_mul_pow (negative : Bool) (digits count : Nat) (exponent : Int) :
    of negative (digits * Nat.pow 10 count) exponent = of negative digits (exponent + count) := by
  by_cases zero : digits = 0
  · simp [of, zero]
  · have positive : digits * Nat.pow 10 count ≠ 0 :=
      Nat.mul_ne_zero zero (Nat.ne_of_gt (Nat.pow_pos (by decide)))
    simp only [of, dif_neg zero, dif_neg positive, stripZeros_mul_pow zero]

/-- A number is what its digits and its power of ten give. -/
theorem of_digits (d : Decimal) : of d.negative d.digits d.exponent = d := by
  obtain ⟨negative, digits, exponent, normal⟩ := d
  by_cases zero : digits = 0
  · obtain ⟨-, rfl, rfl⟩ := normal (by omega)
    simp [of, zero, Decimal.zero]
  · have last : digits % 10 ≠ 0 := fun divides => zero (normal divides).1
    simp [of, zero, stripZeros_of_mod_ne_zero exponent last]

/-! ## Whole numbers -/

/-- Taking away zeros at the end raises the power of ten by as many places. -/
theorem exists_stripZeros (digits : Nat) (exponent : Int) :
    ∃ count : Nat, (stripZeros digits exponent).2 = exponent + count ∧
      (stripZeros digits exponent).1 * Nat.pow 10 count = digits := by
  fun_induction stripZeros digits exponent with
  | case1 digits exponent zero ih =>
    obtain ⟨count, raised, left⟩ := ih
    have longer : (stripZeros (digits / 10) (exponent + 1)).1 * Nat.pow 10 (count + 1) =
        (stripZeros (digits / 10) (exponent + 1)).1 * Nat.pow 10 count * 10 :=
      (Nat.mul_assoc _ _ _).symm
    refine ⟨count + 1, ?_, ?_⟩
    · rw [raised]
      omega
    · rw [longer, left]
      omega
  | case2 digits exponent none => exact ⟨0, by simp, Nat.mul_one digits⟩

/-- A whole number is made of as many places as were taken away. -/
theorem exists_of_zero {negative : Bool} {n : Nat} (nonzero : n ≠ 0) :
    ∃ count : Nat, (of negative n 0).negative = negative ∧ (of negative n 0).exponent = count ∧
      (of negative n 0).digits * Nat.pow 10 count = n := by
  obtain ⟨count, raised, left⟩ := exists_stripZeros n 0
  rw [of, dif_neg nonzero]
  exact ⟨count, rfl, raised.trans (Int.zero_add _), left⟩

/-- A natural number is got back. -/
theorem toNat?_ofNat (n : Nat) : (ofNat n).toNat? = some n := by
  unfold ofNat toNat?
  by_cases zero : n = 0
  · subst zero
    rfl
  · obtain ⟨count, positive, places, whole⟩ := exists_of_zero zero
    rw [positive, places, if_neg (by simp), Int.toNat_natCast, whole]

/-- An integer is got back. -/
theorem toInt?_ofInt (n : Int) : (ofInt n).toInt? = some n := by
  unfold ofInt toInt?
  by_cases zero : n = 0
  · subst zero
    rfl
  · obtain ⟨count, sign, places, whole⟩ := exists_of_zero (Int.natAbs_ne_zero.mpr zero)
    rw [sign, places, if_neg (by omega)]
    dsimp only
    rw [Int.toNat_natCast, whole]
    by_cases negative : n < 0
    · rw [if_pos (by simpa using negative)]
      congr 1
      omega
    · rw [if_neg (by simpa using negative)]
      congr 1
      omega

end Decimal

/-! ## Numerals -/

namespace Json

/-- The characters of a fraction; there are none without a digit. -/
def pointChars (fraction : List Char) : List Char :=
  if fraction.isEmpty then [] else '.' :: fraction

/-- The characters of a power of ten, if there is one. -/
def powerChars : Option Int → List Char
  | none => []
  | some exponent => 'e' :: Decimal.exponentChars exponent

/-- A number in parts: the digits before the point, those behind it, and a power of ten. -/
structure Numeral where
  whole : List Char
  fraction : List Char
  power : Option Int
  isDigit : ∀ c ∈ whole ++ fraction, c.isDigit
  nonempty : whole ≠ []
  lead : whole.head? = some '0' → whole.length = 1

namespace Numeral

/-- The characters of a number in parts. -/
def chars (numeral : Numeral) : List Char :=
  numeral.whole ++ pointChars numeral.fraction ++ powerChars numeral.power

/-- The number that the parts stand for. -/
def value (numeral : Numeral) (negative : Bool) : Decimal :=
  Decimal.of negative (Nat.ofDigitChars 10 (numeral.whole ++ numeral.fraction) 0)
    (numeral.power.getD 0 - numeral.fraction.length)

/-- The value of a numeral whose digits are those of a number with zeros behind them. -/
theorem value_eq {numeral : Numeral} {n count : Nat} {exponent : Int}
    (digits : Nat.ofDigitChars 10 (numeral.whole ++ numeral.fraction) 0 = n * Nat.pow 10 count)
    (place : numeral.power.getD 0 - numeral.fraction.length + count = exponent)
    (negative : Bool) : numeral.value negative = Decimal.of negative n exponent := by
  rw [value, digits, Decimal.of_mul_pow, place]

/-- A numeral begins with a digit. -/
theorem chars_eq_cons (numeral : Numeral) :
    ∃ digit more, numeral.chars = digit :: more ∧ digit.isDigit := by
  obtain ⟨digit, more, whole⟩ := List.exists_cons_of_ne_nil numeral.nonempty
  exact ⟨digit, _, by rw [chars, whole]; rfl, numeral.isDigit digit (by simp [whole])⟩

end Numeral

/-! ## Reading the parts -/

/-- Whether a character cannot stand right behind a number, because it would be part of it. -/
def continuesNumber (c : Char) : Bool := c.isDigit || c == '.' || c == 'e' || c == 'E'

/-- Characters in front of which a number is complete. -/
def EndsNumber (rest : List Char) : Prop := ∀ c ∈ rest.head?, continuesNumber c = false

/-- A run of digits is read up to the first character that is none. -/
theorem readDigits_append {digits rest : List Char} (isDigit : ∀ c ∈ digits, c.isDigit)
    (stop : ∀ c ∈ rest.head?, c.isDigit = false) :
    readDigits (digits ++ rest) = (digits, rest) := by
  have nothing : rest.takeWhile Char.isDigit = [] ∧ rest.dropWhile Char.isDigit = rest := by
    cases rest with
    | nil => simp
    | cons c rest => simp [stop c rfl]
  rw [readDigits, List.takeWhile_append_of_pos isDigit, List.dropWhile_append_of_pos isDigit,
    nothing.1, nothing.2, List.append_nil]

/-- A fraction is read in front of anything that neither continues nor begins one. -/
theorem readFraction_append {fraction rest : List Char} (isDigit : ∀ c ∈ fraction, c.isDigit)
    (stop : ∀ c ∈ rest.head?, c.isDigit = false ∧ c ≠ '.') :
    readFraction (pointChars fraction ++ rest) = some (fraction, rest) := by
  cases fraction with
  | nil =>
    show readFraction rest = some ([], rest)
    unfold readFraction
    split
    · exact absurd rfl (stop '.' rfl).2
    · rfl
  | cons first more =>
    have read := readDigits_append isDigit fun c mem => (stop c mem).1
    simp only [pointChars, List.isEmpty_cons, Bool.false_eq_true, if_false, List.cons_append,
      readFraction] at read ⊢
    rw [read]

/-- A power of ten is read in front of anything that neither continues nor begins one. -/
theorem readExponent_append {rest : List Char} (power : Option Int) (ends : EndsNumber rest) :
    readExponent (powerChars power ++ rest) = some (power.getD 0, rest) := by
  cases power with
  | none =>
    cases rest with
    | nil => rfl
    | cons c rest =>
      have other := ends c rfl
      simp only [continuesNumber, Bool.or_eq_false_iff, beq_eq_false_iff_ne] at other
      simp [powerChars, readExponent, other]
  | some exponent =>
    have isDigit : ∀ c ∈ Nat.toDigits 10 exponent.natAbs, c.isDigit := fun c mem =>
      Nat.isDigit_of_mem_toDigits (by decide) (by decide) mem
    have stop : ∀ c ∈ rest.head?, c.isDigit = false := fun c mem => by
      have other := ends c mem
      simp only [continuesNumber, Bool.or_eq_false_iff] at other
      exact other.1.1.1
    have read := readDigits_append isDigit stop
    have size := @Nat.ofDigitChars_ten_toDigits exponent.natAbs
    obtain ⟨first, more, digits⟩ :=
      List.exists_cons_of_ne_nil (@Nat.toDigits_ne_nil exponent.natAbs 10)
    rw [digits] at read size
    rw [powerChars, Decimal.exponentChars, digits]
    by_cases negative : exponent < 0
    · simp only [negative, if_true, List.cons_append, readExponent, readSign, true_or] at read ⊢
      simp only [read, size, Option.getD_some]
      congr 2
      omega
    · simp only [negative, if_false, List.cons_append, readExponent, readSign, true_or] at read ⊢
      simp only [read, size, Option.getD_some, Bool.false_eq_true, if_false, if_true]
      congr 2
      omega

/-- **A numeral is read as its value**, in front of anything that does not continue it. -/
theorem readMagnitude_numeral (negative : Bool) (numeral : Numeral) {rest : List Char}
    (ends : EndsNumber rest) :
    readMagnitude negative (numeral.chars ++ rest) = some (numeral.value negative, rest) := by
  obtain ⟨whole, fraction, power, isDigit, nonempty, lead⟩ := numeral
  have wholeDigits : ∀ c ∈ whole, c.isDigit := fun c mem =>
    isDigit c (List.mem_append_left _ mem)
  have fractionDigits : ∀ c ∈ fraction, c.isDigit := fun c mem =>
    isDigit c (List.mem_append_right _ mem)
  have stopFraction : ∀ c ∈ (powerChars power ++ rest).head?, c.isDigit = false ∧ c ≠ '.' := by
    intro c mem
    cases power with
    | none =>
      have other := ends c mem
      simp only [continuesNumber, Bool.or_eq_false_iff, beq_eq_false_iff_ne] at other
      exact ⟨other.1.1.1, other.1.1.2⟩
    | some exponent =>
      obtain rfl : 'e' = c := by simpa [powerChars] using mem
      decide
  have stopWhole : ∀ c ∈ (pointChars fraction ++ (powerChars power ++ rest)).head?,
      c.isDigit = false := by
    intro c mem
    cases fraction with
    | nil => exact (stopFraction c mem).1
    | cons first more =>
      obtain rfl : '.' = c := by simpa [pointChars] using mem
      decide
  have read := readDigits_append wholeDigits stopWhole
  obtain ⟨first, more, rfl⟩ := List.exists_cons_of_ne_nil nonempty
  have leads : ¬ ((first :: more).head? = some '0' ∧ (first :: more).length ≠ 1) :=
    fun ⟨zero, long⟩ => long (lead zero)
  simp only [Numeral.chars, List.append_assoc, readMagnitude, read, if_neg leads,
    readFraction_append fractionDigits stopFraction, readExponent_append power ends,
    Option.bind_eq_bind, Option.bind_some, Numeral.value]
  rfl

/-! ## The four forms -/

/-- The digits of a natural number. -/
structure IsNatural (digits : List Char) (n : Nat) : Prop where
  isDigit : ∀ c ∈ digits, c.isDigit
  nonempty : digits ≠ []
  lead : digits.head? = some '0' → digits = ['0'] ∧ n = 0
  value : Nat.ofDigitChars 10 digits 0 = n

/-- The digits of a number other than zero do not begin with a zero. -/
theorem head?_toDigits {n : Nat} (nonzero : n ≠ 0) : (Nat.toDigits 10 n).head? ≠ some '0' := by
  induction n using Nat.strongRecOn with
  | ind n ih =>
    rw [Nat.toDigits_eq_if (by decide)]
    split
    · next small =>
      have other : ∀ k < 10, k ≠ 0 → [k.digitChar].head? ≠ some '0' := by decide
      exact other n small nonzero
    · next large =>
      have front := ih (n / 10) (by omega) (by omega)
      obtain ⟨first, more, digits⟩ :=
        List.exists_cons_of_ne_nil (@Nat.toDigits_ne_nil (n / 10) 10)
      simpa [digits] using front

/-- The decimal digits of a number are a numeral of it. -/
theorem isNatural_toDigits (n : Nat) : IsNatural (Nat.toDigits 10 n) n where
  isDigit _ mem := Nat.isDigit_of_mem_toDigits (by decide) (by decide) mem
  nonempty := Nat.toDigits_ne_nil
  lead head := by
    by_cases zero : n = 0
    · exact ⟨zero ▸ Nat.toDigits_zero 10, zero⟩
    · exact absurd head (head?_toDigits zero)
  value := Nat.ofDigitChars_ten_toDigits

/-- A run of zeros consists of digits. -/
theorem isDigit_of_mem_zeros {count : Nat} : ∀ c ∈ Decimal.zeros count, c.isDigit := by
  intro c mem
  rw [List.eq_of_mem_replicate mem]
  decide

namespace IsNatural

variable {digits : List Char} {n : Nat} (natural : IsNatural digits n)
include natural

/-- Digits and zeros behind them, in the place of a power of ten. -/
theorem exists_padded (count : Nat) (normal : n = 0 → count = 0) :
    ∃ numeral : Numeral, numeral.chars = digits ++ Decimal.zeros count ∧
      ∀ negative, numeral.value negative = Decimal.of negative n count := by
  obtain ⟨isDigit, nonempty, lead, value⟩ := natural
  obtain ⟨first, more, rfl⟩ := List.exists_cons_of_ne_nil nonempty
  refine ⟨⟨first :: more ++ Decimal.zeros count, [], none, ?_, by simp, ?_⟩, ?_,
    Numeral.value_eq (show _ = n * Nat.pow 10 count from ?_) (by simp)⟩
  · intro c mem
    rw [List.append_nil, List.mem_append] at mem
    exact mem.elim (isDigit c) (isDigit_of_mem_zeros c)
  · intro head
    obtain ⟨alone, zero⟩ := lead head
    rw [alone, normal zero]
    rfl
  · simp [Numeral.chars, pointChars, powerChars]
  · rw [List.append_nil, Nat.ofDigitChars_append, value, Decimal.zeros,
      Nat.ofDigitChars_replicate_zero]
    exact Nat.mul_comm (10 ^ count) n

/-- Digits with a point behind some of them, and perhaps a power of ten. -/
theorem exists_cut (place : Nat) (power : Option Int) (positive : 0 < place)
    (alone : place = 1 ∨ n ≠ 0) :
    ∃ numeral : Numeral, numeral.chars =
        digits.take place ++ pointChars (digits.drop place) ++ powerChars power ∧
      ∀ negative, numeral.value negative =
        Decimal.of negative n (power.getD 0 - (digits.length - place : Nat)) := by
  obtain ⟨isDigit, nonempty, lead, value⟩ := natural
  refine ⟨⟨digits.take place, digits.drop place, power, ?_, ?_, ?_⟩, rfl,
    Numeral.value_eq (show _ = n * Nat.pow 10 0 from ?_) (by simp)⟩
  · rwa [List.take_append_drop]
  · simp only [ne_eq, List.take_eq_nil_iff, nonempty, or_false]
    omega
  · intro head
    have length := List.length_pos_iff.mpr nonempty
    rw [List.length_take]
    rcases alone with rfl | nonzero
    · omega
    · rw [List.head?_take, if_neg (by omega)] at head
      exact absurd (lead head).2 nonzero
  · rw [List.take_append_drop, value]
    exact (Nat.mul_one n).symm

/-- Digits behind a point, with zeros between. -/
theorem exists_behind (count : Nat) :
    ∃ numeral : Numeral, numeral.chars = '0' :: '.' :: Decimal.zeros count ++ digits ∧
      ∀ negative, numeral.value negative =
        Decimal.of negative n (-(count + digits.length : Nat)) := by
  obtain ⟨isDigit, nonempty, lead, value⟩ := natural
  refine ⟨⟨['0'], Decimal.zeros count ++ digits, none, ?_, by simp, fun _ => rfl⟩, ?_,
    Numeral.value_eq (show _ = n * Nat.pow 10 0 from ?_) (by simp [Decimal.zeros])⟩
  · intro c mem
    simp only [List.mem_append, List.mem_singleton] at mem
    rcases mem with rfl | zeros | mem
    · decide
    · exact isDigit_of_mem_zeros c zeros
    · exact isDigit c mem
  · simp [Numeral.chars, pointChars, powerChars, nonempty]
  · have zeros : Nat.ofDigitChars 10 (Decimal.zeros count) 0 = 0 :=
      Nat.ofDigitChars_replicate_zero
    show Nat.ofDigitChars 10 ('0' :: (Decimal.zeros count ++ digits)) 0 = n * Nat.pow 10 0
    rw [Nat.ofDigitChars_cons, Nat.ofDigitChars_append]
    exact (zeros.symm ▸ value).trans (Nat.mul_one n).symm

end IsNatural

/-- **However a number is written, it is a numeral of that number.** -/
theorem exists_numeral {n : Nat} {exponent : Int} (normal : n = 0 → exponent = 0) :
    ∃ numeral : Numeral,
      numeral.chars = Decimal.magnitudeChars (Nat.toDigits 10 n) exponent ∧
        ∀ negative, numeral.value negative = Decimal.of negative n exponent := by
  have natural := isNatural_toDigits n
  have length := List.length_pos_iff.mpr natural.nonempty
  generalize Nat.toDigits 10 n = digits at *
  unfold Decimal.magnitudeChars
  dsimp only
  split
  · obtain ⟨numeral, chars, value⟩ := natural.exists_padded exponent.toNat (by omega)
    refine ⟨numeral, chars, fun negative => ?_⟩
    rw [value, Int.toNat_of_nonneg (by omega)]
  · split
    · next inside =>
      have some : pointChars (digits.drop (digits.length + exponent).toNat) =
          '.' :: digits.drop (digits.length + exponent).toNat := by
        rw [pointChars, if_neg]
        simp only [List.isEmpty_iff, List.drop_eq_nil_iff]
        omega
      obtain ⟨numeral, chars, value⟩ := natural.exists_cut
        (digits.length + exponent).toNat none (by omega) (by omega)
      refine ⟨numeral, ?_, fun negative => ?_⟩
      · rw [chars, some, powerChars, List.append_nil]
      · rw [value]
        congr 1
        simp only [Option.getD_none]
        omega
    · split
      · obtain ⟨numeral, chars, value⟩ :=
          natural.exists_behind (-(digits.length + exponent)).toNat
        refine ⟨numeral, chars, fun negative => ?_⟩
        rw [value]
        congr 1
        omega
      · obtain ⟨numeral, chars, value⟩ := natural.exists_cut 1
          (some (digits.length + exponent - 1)) (by decide) (Or.inl rfl)
        refine ⟨numeral, chars, fun negative => ?_⟩
        rw [value]
        congr 1
        simp only [Option.getD_some]
        omega

/-! ## Numbers -/

/-- A number is written as a numeral of its own, behind a minus sign if it has one. -/
theorem exists_numeral_chars (d : Decimal) : ∃ numeral : Numeral,
    d.chars = (if d.negative then ['-'] else []) ++ numeral.chars ∧
      numeral.value d.negative = d := by
  have normal : d.digits = 0 → d.exponent = 0 := fun zero => (d.normal (by omega)).2.1
  obtain ⟨numeral, chars, value⟩ := exists_numeral normal
  refine ⟨numeral, ?_, ?_⟩
  · rw [Decimal.chars, chars]
  · rw [value, Decimal.of_digits]

/-- A written number begins with a digit or a minus sign. -/
theorem chars_eq_cons (d : Decimal) :
    ∃ first more, d.chars = first :: more ∧ (first.isDigit ∨ first = '-') := by
  obtain ⟨numeral, chars, -⟩ := exists_numeral_chars d
  obtain ⟨digit, more, shape, isDigit⟩ := numeral.chars_eq_cons
  rw [chars, shape]
  cases d.negative with
  | true => exact ⟨'-', _, rfl, Or.inr rfl⟩
  | false => exact ⟨digit, more, rfl, Or.inl isDigit⟩

/-- **A written number is read as itself**, in front of anything that does not continue it. -/
theorem readNumber_chars (d : Decimal) {rest : List Char} (ends : EndsNumber rest) :
    readNumber (d.chars ++ rest) = some (d, rest) := by
  obtain ⟨numeral, chars, value⟩ := exists_numeral_chars d
  have read := readMagnitude_numeral d.negative numeral ends
  rw [value] at read
  rw [chars]
  cases negative : d.negative with
  | true =>
    rw [negative] at read
    simpa only [if_true, List.cons_append, List.nil_append, readNumber] using read
  | false =>
    rw [negative] at read
    obtain ⟨digit, more, shape, isDigit⟩ := numeral.chars_eq_cons
    unfold readNumber
    split
    · next minus =>
      -- A digit stands where the minus sign would be.
      obtain ⟨rfl, -⟩ : digit = '-' ∧ _ := by simpa [shape] using minus
      exact absurd isDigit (by decide)
    · exact read

end Json

end LinkScript
