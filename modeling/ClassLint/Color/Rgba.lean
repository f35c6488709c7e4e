/-!
# Colors in sRGB

A color with red, green, blue and opacity as numbers of the unit interval, its bytes,
and the operations that keep or change its opacity.

A number outside of the unit interval is moved to the nearer end where a rule asks for
it; what is not a number stays so and has the byte zero.
-/

namespace ClassLint

/-- The nearest number of the unit interval. -/
def clampUnit (x : Float) : Float :=
  if x < 0.0 then 0.0 else if x > 1.0 then 1.0 else x

/-- A gamma-encoded color whose opacity is not multiplied into its channels. -/
structure Rgba where
  r : Float
  g : Float
  b : Float
  a : Float
  deriving Repr

/-- A color with one byte per channel. -/
structure Rgba8 where
  r : UInt8
  g : UInt8
  b : UInt8
  a : UInt8
  deriving DecidableEq, Repr

namespace Rgba8

/-- The bytes in the order red, green, blue, opacity. -/
def toList (c : Rgba8) : List UInt8 :=
  [c.r, c.g, c.b, c.a]

end Rgba8

/-- The number of the unit interval that a byte stands for. -/
def unitOfByte (byte : UInt8) : Float :=
  byte.toFloat / 255.0

/-- The byte nearest to a number from 0 to 255; half a byte is rounded up. -/
def nearestByte (x : Float) : UInt8 :=
  let below := x.toUInt8
  if x - below.toFloat ≥ 0.5 then below + 1 else below

/-- The byte nearest to a number of the unit interval. -/
def byteOfUnit (x : Float) : UInt8 :=
  nearestByte (clampUnit x * 255.0)

namespace Rgba

/-- Fully transparent black. -/
def transparent : Rgba := ⟨0.0, 0.0, 0.0, 0.0⟩

/-- Opaque black. -/
def black : Rgba := ⟨0.0, 0.0, 0.0, 1.0⟩

/-- Opaque white. -/
def white : Rgba := ⟨1.0, 1.0, 1.0, 1.0⟩

/-- The color that four bytes stand for. -/
def ofBytes (c : Rgba8) : Rgba :=
  ⟨unitOfByte c.r, unitOfByte c.g, unitOfByte c.b, unitOfByte c.a⟩

/-- The nearest bytes. -/
def toBytes (c : Rgba) : Rgba8 :=
  ⟨byteOfUnit c.r, byteOfUnit c.g, byteOfUnit c.b, byteOfUnit c.a⟩

/-- The color with another opacity, moved into the unit interval. -/
def withAlpha (c : Rgba) (alpha : Float) : Rgba :=
  { c with a := clampUnit alpha }

/-- The color with its opacity multiplied by a number, moved into the unit interval. -/
def multiplyAlpha (c : Rgba) (opacity : Float) : Rgba :=
  c.withAlpha (c.a * clampUnit opacity)

/-- The color with every channel moved into the unit interval. -/
def clamped (c : Rgba) : Rgba :=
  ⟨clampUnit c.r, clampUnit c.g, clampUnit c.b, clampUnit c.a⟩

/-- The distance of two bytes. -/
def byteDistance (x y : UInt8) : Nat :=
  max (x.toNat - y.toNat) (y.toNat - x.toNat)

/-- The largest distance of two colors in one channel, in bytes. -/
def maxDistance (c d : Rgba) : Nat :=
  (List.zipWith byteDistance c.toBytes.toList d.toBytes.toList).foldl max 0

end Rgba

end ClassLint
