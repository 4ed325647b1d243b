import Offside.Number
import Offside.Text.Character

/-!
# Decimal digits by limbs

The decimal digits of a number that is too great for a word are found by limbs: words of nine
decimal digits each, the least one first. Every digit of the literal is one pass over the limbs,
which multiplies them by the radix and carries from each limb to the next one.
-/
namespace Offside.Literal

open Text

/-- What every limb is below: it holds nine decimal digits. -/
def limbBase : UInt64 := 1000000000

/-- Limbs times a factor plus a carry, and the carry behind the last limb. -/
def scaleLimbs (factor : UInt64) : UInt64 → List UInt64 → List UInt64 × UInt64
  | carry, [] => ([], carry)
  | carry, limb :: rest =>
    let value := limb * factor + carry
    let scaled := scaleLimbs factor (value / limbBase) rest
    (value % limbBase :: scaled.1, scaled.2)

/-- A carry as limbs, of which zero has none. -/
def carryLimbs (carry : UInt64) : List UInt64 :=
  if 0 < carry then carry % limbBase :: carryLimbs (carry / limbBase) else []
termination_by carry.toNat
decreasing_by
  rename_i positive
  exact Nat.div_lt_self (UInt64.lt_iff_toNat_lt.1 positive) (by decide)

/-- The limbs of a number with one more digit behind it. -/
def appendDigit (radix : UInt64) (limbs : List UInt64) (digit : UInt64) : List UInt64 :=
  let scaled := scaleLimbs radix digit limbs
  scaled.1 ++ carryLimbs scaled.2

/-- The limbs of the number that digits write. Characters that are no digits are passed over. -/
def limbsOf (radix : Nat) (digits : List Char) : List UInt64 :=
  ((digits.filterMap (digitValue? radix)).map UInt64.ofNat).foldl
    (appendDigit (UInt64.ofNat radix)) [0]

/-- A limb as nine decimal digits. -/
def limbDigits (limb : UInt64) : List Char :=
  let digits := decimalDigits limb.toNat
  List.replicate (9 - digits.length) '0' ++ digits

/-- The decimal digits of limbs. Only the last limb is written without zeros in front. -/
def limbsDigits (limbs : List UInt64) : List Char :=
  match limbs.reverse with
  | [] => []
  | top :: rest => decimalDigits top.toNat ++ rest.flatMap limbDigits

/-- The decimal digits of the number that digits of a radix write. -/
def toDecimal (radix : Nat) (digits : List Char) : List Char :=
  limbsDigits (limbsOf radix digits)

end Offside.Literal
