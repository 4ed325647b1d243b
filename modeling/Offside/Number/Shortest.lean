import Offside.Number.Double

/-!
# Shortest decimals

The decimal that stands for a double is the one with the fewest digits among those that round
to it; of two with equally few digits, the nearer one, and the greater at an exact tie. The
search tries one digit, two digits and so on. With a given number of digits only the two
neighbours of the double on the decimal grid can be in the interval if any can.
-/
namespace Offside

/-- A coefficient times a power of ten. -/
structure Decimal where
  /-- The digits, as a number. -/
  coefficient : Nat
  /-- The power of ten of the last digit. -/
  exponent : Int
  deriving DecidableEq, Inhabited, Repr

namespace Decimal

/-- The digits of the coefficient, most significant first. -/
def digits (decimal : Decimal) : List Char :=
  Nat.toDigits 10 decimal.coefficient

/-- The power of ten of the first digit. -/
def leading (decimal : Decimal) : Int :=
  decimal.digits.length - 1 + decimal.exponent

/-- The same value without trailing zeros in the coefficient. The first argument bounds the
number of zeros dropped. -/
def dropZeros : Nat → Decimal → Decimal
  | 0, decimal => decimal
  | bound + 1, decimal =>
    if decimal.coefficient % 10 = 0 then
      dropZeros bound ⟨decimal.coefficient / 10, decimal.exponent + 1⟩
    else decimal

end Decimal

/-- The reals that round to a double, as multiples of `unit / 2 ^ 1076`. -/
structure Interval where
  /-- The lower end. -/
  low : Nat
  /-- The double itself. -/
  middle : Nat
  /-- The upper end. -/
  high : Nat
  /-- What the three are multiples of. -/
  unit : Nat
  /-- The ends round to the double as well. -/
  closed : Bool

namespace Interval

/-- The interval of a finite double. The doubles below a power of two are twice as dense as
those above it, so the interval is shorter below. -/
def ofDouble (value : Double) : Interval :=
  let middle := 4 * value.significand
  { low := middle - if value.significand = Double.leadingBit then 1 else 2
    middle
    high := middle + 2
    unit := 1 <<< value.scale
    closed := value.significand % 2 = 0 }

/-- The denominator of all intervals. -/
def denominator : Nat := 1 <<< 1076

/-- The number of places before the decimal point of a positive value; zero or negative where
the value starts behind the point. -/
def places (interval : Interval) : Int :=
  let numerator := interval.middle * interval.unit
  if denominator ≤ numerator then ((Nat.toDigits 10 (numerator / denominator)).length : Int)
  else 1 - ((Nat.toDigits 10 ((denominator - 1) / numerator)).length : Int)

/-- The decimal in the interval with a given number of digits that is nearest to the middle,
the greater at a tie. -/
def candidate? (interval : Interval) (size : Nat) : Option Decimal :=
  let exponent := interval.places - size
  let step := denominator * Double.powerOfTen exponent.toNat
  let scaled := interval.unit * Double.powerOfTen (-exponent).toNat
  let admits (coefficient : Nat) : Bool :=
    let point := coefficient * step
    let low := interval.low * scaled
    let high := interval.high * scaled
    if interval.closed then low ≤ point && point ≤ high else low < point && point < high
  let below := interval.middle * scaled / step
  let above := below + 1
  let nearerAbove : Bool := step ≤ 2 * (interval.middle * scaled % step)
  if admits above && (nearerAbove || !admits below) then some ⟨above, exponent⟩
  else if admits below then some ⟨below, exponent⟩
  else none

/-- The first candidate among those with `size` digits and more, up to a bound; the whole part
if there is none. -/
def search (interval : Interval) : (bound size : Nat) → Decimal
  | 0, _ => ⟨interval.middle * interval.unit / denominator, 0⟩
  | bound + 1, size => (interval.candidate? size).getD (interval.search bound (size + 1))

end Interval

/-- The shortest decimal that rounds to a finite double, for its magnitude. Seventeen digits
are enough for every double. -/
def Double.shortest (value : Double) : Decimal :=
  if value.magnitudeBits = 0 then ⟨0, 0⟩
  else ((Interval.ofDouble value).search 17 1).dropZeros 17

end Offside
