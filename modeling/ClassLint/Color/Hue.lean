/-!
# Angles of hue

The remainder of a double by a whole number, computed exactly, and the place of an angle
on the circle of 360 degrees.
-/

namespace ClassLint

/-- A finite double as significand and exponent: its magnitude is the significand times two to the
exponent. -/
def significandAndExponent (x : Float) : Nat × Int :=
  let bits := x.toBits.toNat
  let fraction : Nat := bits % Nat.pow 2 52
  let exponent : Nat := bits / Nat.pow 2 52 % Nat.pow 2 11
  if exponent = 0 then (fraction, -1074)
  else (fraction + Nat.pow 2 52, (exponent : Int) - 1075)

/-- The exact remainder of the magnitude of a finite double by a positive whole number. -/
def magnitudeRemainder (x : Float) (modulus : Nat) : Float :=
  let (significand, exponent) := significandAndExponent x
  if exponent < 0 then
    let scale := Nat.pow 2 (-exponent).toNat
    (significand % (modulus * scale)).toFloat.scaleB exponent
  else
    (significand * Nat.pow 2 exponent.toNat % modulus).toFloat

/-- The remainder of a finite double by 360 that is not negative; a tiny negative angle may round to
360 itself. -/
def circleRemainder (angle : Float) : Float :=
  let remainder := magnitudeRemainder angle 360
  if angle < 0.0 && remainder > 0.0 then -remainder + 360.0 else remainder

/-- The hue of an angle in degrees, from 0 to below 360; an angle that is not finite has the hue
zero. -/
def normalizeHue (angle : Float) : Float :=
  if angle.isFinite then
    let wrapped := circleRemainder angle
    if wrapped ≥ 360.0 then 0.0 else wrapped
  else 0.0

/-- Half the circumference of the unit circle. -/
def pi : Float := 3.141592653589793

/-- The angle in degrees. -/
def degrees (angle : Float) : Float :=
  angle * (180.0 / pi)

/-- The angle in radians. -/
def radians (angle : Float) : Float :=
  angle * (pi / 180.0)

end ClassLint
