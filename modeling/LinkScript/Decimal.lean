/-!
# Decimal numbers

A number with finitely many decimal digits, kept in one form: its digits as a natural number
without a zero at the end, and the power of ten they are multiplied by.  Zero has no sign.

`Decimal.chars` writes a number the short way.  With `n` for the place of the decimal point
counted from the first digit, the digits are written out for `-6 < n ≤ 21`, and with a power of
ten otherwise.
-/

namespace LinkScript

/-- The number `digits * 10 ^ exponent`, with a minus sign if `negative`. -/
structure Decimal where
  negative : Bool
  digits : Nat
  exponent : Int
  normal : digits % 10 = 0 → digits = 0 ∧ exponent = 0 ∧ negative = false
  deriving DecidableEq, Repr

namespace Decimal

/-- Digits without the zeros at their end, and the power of ten that makes up for them. -/
def stripZeros (digits : Nat) (exponent : Int) : Nat × Int :=
  if h : digits ≠ 0 ∧ digits % 10 = 0 then stripZeros (digits / 10) (exponent + 1)
  else (digits, exponent)
termination_by digits
decreasing_by omega

/-- No zero is left at the end of the digits of a number that is not zero. -/
theorem stripZeros_mod_ne_zero {digits : Nat} (exponent : Int) (h : digits ≠ 0) :
    (stripZeros digits exponent).1 % 10 ≠ 0 := by
  fun_induction stripZeros digits exponent with
  | case1 digits exponent hz ih => exact ih (by omega)
  | case2 digits exponent hz => simp_all

/-- The number zero. -/
def zero : Decimal := ⟨false, 0, 0, by simp⟩

instance : Inhabited Decimal := ⟨zero⟩

/-- The number with these digits and power of ten. -/
def of (negative : Bool) (digits : Nat) (exponent : Int) : Decimal :=
  if h : digits = 0 then zero
  else
    ⟨negative, (stripZeros digits exponent).1, (stripZeros digits exponent).2,
      fun hz => absurd hz (stripZeros_mod_ne_zero exponent h)⟩

/-- A natural number. -/
def ofNat (n : Nat) : Decimal := of false n 0

/-- An integer. -/
def ofInt (n : Int) : Decimal := of (n < 0) n.natAbs 0

/-- The natural number that a decimal is, if it is one. -/
def toNat? (d : Decimal) : Option Nat :=
  if d.negative ∨ d.exponent < 0 then none else some (d.digits * Nat.pow 10 d.exponent.toNat)

/-- The integer that a decimal is, if it is one. -/
def toInt? (d : Decimal) : Option Int :=
  if d.exponent < 0 then none
  else
    let size := d.digits * Nat.pow 10 d.exponent.toNat
    some (if d.negative then -(size : Int) else size)

/-! ## Writing -/

/-- A run of zeros. -/
def zeros (count : Nat) : List Char := List.replicate count '0'

/-- The digits of a power of ten with its sign. -/
def exponentChars (exponent : Int) : List Char :=
  (if exponent < 0 then '-' else '+') :: Nat.toDigits 10 exponent.natAbs

/-- A number without its sign, from its digits and power of ten. -/
def magnitudeChars (digits : List Char) (exponent : Int) : List Char :=
  let point : Int := digits.length + exponent
  if 0 ≤ exponent ∧ point ≤ 21 then digits ++ zeros exponent.toNat
  else if 0 < point ∧ point ≤ 21 then
    digits.take point.toNat ++ '.' :: digits.drop point.toNat
  else if -6 < point ∧ point ≤ 0 then
    '0' :: '.' :: zeros (-point).toNat ++ digits
  else
    let fraction := digits.drop 1
    digits.take 1 ++ (if fraction.isEmpty then [] else '.' :: fraction)
      ++ 'e' :: exponentChars (point - 1)

/-- A number as it is written. -/
def chars (d : Decimal) : List Char :=
  (if d.negative then ['-'] else []) ++ magnitudeChars (Nat.toDigits 10 d.digits) d.exponent

/-- A number as it is written. -/
def text (d : Decimal) : String := String.ofList d.chars

end Decimal

end LinkScript
