/-!
# The double nearest to a fraction

Rounding a nonnegative fraction to a double-precision number: to the nearer neighbour,
and half way between two neighbours to the one with the even significand.  Values beyond
the largest double have no nearest one.
-/

namespace ClassLint

namespace Decimal

/-- The quotient rounded to the nearest integer, a half to the even neighbour. -/
def roundQuotient (numerator denominator : Nat) : Nat :=
  let quotient := numerator / denominator
  let doubled := 2 * (numerator % denominator)
  if doubled < denominator then quotient
  else if doubled > denominator then quotient + 1
  else quotient + quotient % 2

/-- The fraction divided by a power of two, as numerator and denominator. -/
def scaleDown (numerator denominator : Nat) (exponent : Int) : Nat × Nat :=
  if exponent < 0 then (numerator * Nat.pow 2 (-exponent).toNat, denominator)
  else (numerator, denominator * Nat.pow 2 exponent.toNat)

/-- The exponent of the last place of the double nearest to a positive fraction. -/
def lastPlace (numerator denominator : Nat) : Int :=
  let guess := (numerator.log2 : Int) - (denominator.log2 : Int) - 52
  let (n, d) := scaleDown numerator denominator guess
  max (if n < d * Nat.pow 2 52 then guess - 1 else guess) (-1074)

/-- The bits of the double nearest to a positive fraction; there are none beyond the range. -/
def nearestBits? (numerator denominator : Nat) : Option UInt64 :=
  let exponent := lastPlace numerator denominator
  let (n, d) := scaleDown numerator denominator exponent
  let bits := (exponent + 1074).toNat * Nat.pow 2 52 + roundQuotient n d
  if bits < 0x7FF0000000000000 then some bits.toUInt64 else none

/-- The double nearest to a nonnegative fraction, with the given sign. -/
def nearest? (negative : Bool) (numerator denominator : Nat) : Option Float :=
  let magnitude? :=
    if numerator = 0 then some 0.0 else (nearestBits? numerator denominator).map Float.ofBits
  magnitude?.map fun magnitude => if negative then -magnitude else magnitude

/-- The double nearest to an integer times a power of ten; powers that are out of reach of every
double are not computed. -/
def nearestScaled? (negative : Bool) (digits : Nat) (exponent : Int) : Option Float :=
  let size : Int := (digits.log2 : Int) / 4
  if digits = 0 || exponent + (digits.log2 : Int) < -400 then nearest? negative 0 1
  else if exponent + size > 400 then none
  else if exponent < 0 then nearest? negative digits (Nat.pow 10 (-exponent).toNat)
  else nearest? negative (digits * Nat.pow 10 exponent.toNat) 1

end Decimal

end ClassLint
