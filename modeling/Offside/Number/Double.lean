/-!
# Floating-point numbers

A `Double` is the bit pattern of a 64-bit binary floating-point number. A finite one has a
significand `m` and a scale `s`, and its magnitude is `m * 2 ^ s / 2 ^ 1074`. Rounding a
fraction to a double (`Double.ofRatio`) is done in natural numbers: the nearest double, of two
equally near ones the one with the even significand, and infinity beyond the greatest.
-/
namespace Offside

/-- The bit pattern of a floating-point number of 64 bits. -/
structure Double where
  /-- Sign, exponent and fraction, in 1, 11 and 52 bits. -/
  bits : UInt64
  deriving DecidableEq, Inhabited

namespace Double

/-- A power of ten. -/
def powerOfTen (exponent : Nat) : Nat := Nat.pow 10 exponent

/-- The weight of the least exponent bit, which is also the weight of the leading bit of a
significand. -/
def leadingBit : Nat := 1 <<< 52

/-- The weight of the sign bit. -/
def signBit : Nat := 1 <<< 63

/-- The pattern of infinity, as a number: all exponent bits are set and no others. -/
def infinityBits : Nat := 0x7ff * leadingBit

/-- The sign bit is set. -/
def negative (value : Double) : Bool :=
  signBit ≤ value.bits.toNat

/-- All bits but the sign, as a number. The order of magnitudes is the order of these. -/
def magnitudeBits (value : Double) : Nat :=
  value.bits.toNat % signBit

/-- The value is not a number. -/
def isNaN (value : Double) : Bool :=
  infinityBits < value.magnitudeBits

/-- The value is one of the two infinities. -/
def isInfinite (value : Double) : Bool :=
  value.magnitudeBits = infinityBits

/-- The significand of a finite value. Its leading bit is implied unless the exponent bits are
all zero. -/
def significand (value : Double) : Nat :=
  let fraction := value.magnitudeBits % leadingBit
  if value.magnitudeBits < leadingBit then fraction else leadingBit + fraction

/-- The scale of a finite value: its magnitude is `significand * 2 ^ scale / 2 ^ 1074`. -/
def scale (value : Double) : Nat :=
  value.magnitudeBits / leadingBit - 1

/-- The double with a sign and the other bits given as a number. -/
def ofMagnitude (negative : Bool) (magnitude : Nat) : Double :=
  ⟨UInt64.ofNat ((if negative then signBit else 0) + magnitude)⟩

/-- The quotient of two natural numbers, rounded to the nearest one, a half to the even one. -/
def roundDiv (numerator denominator : Nat) : Nat :=
  let quotient := numerator / denominator
  let twice := 2 * (numerator % denominator)
  if twice < denominator then quotient
  else if denominator < twice then quotient + 1
  else quotient + quotient % 2

/-- The magnitude bits of the double nearest to a fraction. The scale is the least at which the
significand fits into 53 bits, and a significand that rounds up to 54 bits carries into the
exponent by itself. -/
def magnitudeOfRatio (numerator denominator : Nat) : Nat :=
  let raised := numerator <<< 1074
  let scale := Nat.log2 (raised / denominator) - 52
  min (scale * leadingBit + roundDiv raised (denominator <<< scale)) infinityBits

/-- The double nearest to a fraction with a sign. -/
def ofRatio (negative : Bool) (numerator denominator : Nat) : Double :=
  ofMagnitude negative (magnitudeOfRatio numerator denominator)

/-- The double nearest to a coefficient times a power of ten. An exponent that puts the value
beyond `10 ^ 400` or below `10 ^ -400` is not raised: the answer is infinity or zero. -/
def ofDecimal (negative : Bool) (coefficient : Nat) (exponent : Int) : Double :=
  if coefficient = 0 then ofMagnitude negative 0
  else if 400 < exponent then ofMagnitude negative infinityBits
  else if exponent < -(Nat.log2 coefficient + 401 : Int) then ofMagnitude negative 0
  else if 0 ≤ exponent then ofRatio negative (coefficient * powerOfTen exponent.toNat) 1
  else ofRatio negative coefficient (powerOfTen (-exponent).toNat)

/-- The pattern written for every value that is not a number. -/
def nan : Double := ⟨0x7ff8000000000000⟩

/-- An infinity with a sign. -/
def infinity (negative : Bool) : Double :=
  ofMagnitude negative infinityBits

end Double

end Offside
