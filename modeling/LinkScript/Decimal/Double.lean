import LinkScript.Decimal

/-!
# Decimals in double precision

A number that goes through double precision comes out as the double nearest to it, written with
the fewest digits that read back as that double.  Among the candidates with that many digits the
one nearest to the double is taken, and of two equally near ones the even one.

Everything is computed exactly: a positive double is `m * 2 ^ q`, and the numbers that read back
as it fill the interval between the midpoints to its neighbours, the ends included if `m` is even.
-/

namespace LinkScript.Decimal

/-- A positive number `count * 2 ^ two * 10 ^ ten`. -/
structure Scaled where
  count : Nat
  two : Int := 0
  ten : Int := 0
  deriving Repr, DecidableEq

namespace Scaled

/-- The numerator of the number as a fraction. -/
def numerator (x : Scaled) : Nat := x.count * Nat.pow 2 x.two.toNat * Nat.pow 10 x.ten.toNat

/-- The denominator of the number as a fraction. -/
def denominator (x : Scaled) : Nat := Nat.pow 2 (-x.two).toNat * Nat.pow 10 (-x.ten).toNat

/-- Whether a number is at most another one. -/
def le (x y : Scaled) : Bool := x.numerator * y.denominator ≤ y.numerator * x.denominator

/-- Whether a number is less than another one. -/
def lt (x y : Scaled) : Bool := !le y x

/-- The whole part of a number. -/
def floor (x : Scaled) : Nat := x.numerator / x.denominator

/-- The whole number nearest to a number, the even one of two. -/
def round (x : Scaled) : Nat :=
  let whole := x.floor
  let twice := 2 * (x.numerator % x.denominator)
  if twice < x.denominator then whole
  else if x.denominator < twice then whole + 1
  else whole + whole % 2

/-- The greatest power of two that is at most a number. -/
def log2 (x : Scaled) : Int :=
  let guess : Int := x.numerator.log2 - x.denominator.log2
  if le { count := 1, two := guess } x then guess else guess - 1

end Scaled

/-- A positive number in double precision: `m` and `q` of the nearest `m * 2 ^ q`, or nothing if
there is none so great. -/
def nearestDouble (x : Scaled) : Option (Nat × Int) :=
  let q := max (x.log2 - 52) (-1074)
  let m := ({ x with two := x.two - q } : Scaled).round
  let (m, q) := if m = Nat.pow 2 53 then (Nat.pow 2 52, q + 1) else (m, q)
  if 971 < q then none else some (m, q)

/-- The whole number in double precision that is nearest to a whole number, the even one of two. -/
def nearestWhole (n : Nat) : Nat :=
  let dropped := n.log2 - 52
  ({ count := n, two := -(dropped : Int) } : Scaled).round * Nat.pow 2 dropped

/-- The interval of numbers that read back as a double. -/
structure Readback where
  low : Scaled
  high : Scaled
  closed : Bool

namespace Readback

/-- The interval of `m * 2 ^ q`. -/
def of (m : Nat) (q : Int) : Readback where
  low := { count := if m = Nat.pow 2 52 ∧ -1074 < q then 4 * m - 1 else 4 * m - 2, two := q - 2 }
  high := { count := 4 * m + 2, two := q - 2 }
  closed := m % 2 = 0

/-- Whether a number lies in an interval. -/
def contains (interval : Readback) (x : Scaled) : Bool :=
  if interval.closed then Scaled.le interval.low x && Scaled.le x interval.high
  else Scaled.lt interval.low x && Scaled.lt x interval.high

end Readback

/-- The multiple of a power of ten that reads back as the double `m * 2 ^ q` and is nearest to it,
if there is one. -/
def onGrid (m : Nat) (q ten : Int) : Option Nat :=
  let interval := Readback.of m q
  let below := ({ count := m, two := q, ten := -ten } : Scaled).floor
  let reads (count : Nat) : Bool := interval.contains { count, ten }
  match reads below, reads (below + 1) with
  | true, true =>
    let middle : Scaled := { count := 2 * below + 1, ten }
    let double : Scaled := { count := 2 * m, two := q }
    if double.lt middle then some below
    else if middle.lt double then some (below + 1)
    else some (below + below % 2)
  | true, false => some below
  | false, true => some (below + 1)
  | false, false => none

/-- The decimal with the fewest digits that reads back as the double `m * 2 ^ q`, whose first digit
has about the given power of ten. -/
def shortest (negative : Bool) (m : Nat) (q leading : Int) : Option Decimal :=
  (List.range 19).findSome? fun (fewer : Nat) =>
    let ten := leading - fewer
    (onGrid m q ten).map fun digits => of negative digits ten

/-- A number after it went through double precision, or nothing if it is too great for that. -/
def toDouble (d : Decimal) : Option Decimal :=
  let leading : Int := d.exponent + (Nat.toDigits 10 d.digits).length - 1
  if d.digits = 0 ∨ leading < -325 then some zero
  else if 309 < leading then none
  else
    match nearestDouble { count := d.digits, ten := d.exponent } with
    | none => none
    | some (0, _) => some zero
    | some (m, q) => shortest d.negative m q leading

end LinkScript.Decimal
