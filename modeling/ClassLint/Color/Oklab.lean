import ClassLint.Color.Hue
import ClassLint.Color.Rgba

/-!
# Perceptual color spaces

Linear sRGB, Oklab, and Oklab in polar form, OKLCH, with the conversions between them.
The matrices are those of the Oklab transform for the D65 white point.
-/

namespace ClassLint

/-- Red, green and blue in linear light; out of gamut they lie outside of the unit interval. -/
structure LinearRgb where
  r : Float
  g : Float
  b : Float
  deriving Repr

/-- Lightness and two opponent color axes. -/
structure Oklab where
  l : Float
  a : Float
  b : Float
  deriving Repr

/-- Lightness, chroma, hue in degrees, and opacity. -/
structure Oklch where
  l : Float
  c : Float
  h : Float
  alpha : Float
  deriving Repr

/-- Below this chroma a color has no meaningful hue. -/
def achromaticChroma : Float := 1e-5

/-- Encodes a linear channel for display; the number may lie outside of the unit interval. -/
def encodeChannel (v : Float) : Float :=
  if v ≤ 0.0031308 then 12.92 * v
  else 1.055 * v.abs.pow (1.0 / 2.4) - 0.055

/-- Decodes a channel to linear light, the same way on both sides of zero. -/
def decodeChannel (v : Float) : Float :=
  if v.abs ≤ 0.04045 then v / 12.92
  else
    let magnitude := ((v.abs + 0.055) / 1.055).pow 2.4
    if v < 0.0 then -magnitude else magnitude

namespace LinearRgb

/-- The color in linear light, without its opacity. -/
def ofRgba (c : Rgba) : LinearRgb :=
  ⟨decodeChannel c.r, decodeChannel c.g, decodeChannel c.b⟩

/-- The color in Oklab. -/
def toOklab (c : LinearRgb) : Oklab :=
  let l := (0.4122214708 * c.r + 0.5363325363 * c.g + 0.0514459929 * c.b).cbrt
  let m := (0.2119034982 * c.r + 0.6806995451 * c.g + 0.1073969566 * c.b).cbrt
  let s := (0.0883024619 * c.r + 0.2817188376 * c.g + 0.6299787005 * c.b).cbrt
  { l := 0.2104542553 * l + 0.7936177850 * m - 0.0040720468 * s
    a := 1.9779984951 * l - 2.4285922050 * m + 0.4505937099 * s
    b := 0.0259040371 * l + 0.7827717662 * m - 0.8086757660 * s }

end LinearRgb

namespace Oklab

/-- The color in linear light, possibly out of gamut. -/
def toLinear (c : Oklab) : LinearRgb :=
  let l' := c.l + 0.3963377774 * c.a + 0.2158037573 * c.b
  let m' := c.l - 0.1055613458 * c.a - 0.0638541728 * c.b
  let s' := c.l - 0.0894841775 * c.a - 1.2914855480 * c.b
  let l := l' * l' * l'
  let m := m' * m' * m'
  let s := s' * s' * s'
  { r := 4.0767416621 * l - 3.3077115913 * m + 0.2309699292 * s
    g := -1.2684380046 * l + 2.6097574011 * m - 0.3413193965 * s
    b := -0.0041960863 * l - 0.7034186147 * m + 1.7076147010 * s }

/-- The polar form; a color of no chroma has the hue zero. -/
def toOklch (c : Oklab) : Oklch :=
  let chroma := (c.a * c.a + c.b * c.b).sqrt
  { l := c.l
    c := chroma
    h := if chroma < achromaticChroma then 0.0 else normalizeHue (degrees (Float.atan2 c.b c.a))
    alpha := 1.0 }

end Oklab

namespace Oklch

/-- The color with lightness and opacity in the unit interval, chroma not negative and the hue on
the circle. -/
def normalized (l c h alpha : Float) : Oklch :=
  ⟨clampUnit l, if c > 0.0 then c else 0.0, normalizeHue h, clampUnit alpha⟩

/-- The form with two opponent axes, without the opacity. -/
def toOklab (c : Oklch) : Oklab :=
  let angle := radians c.h
  ⟨c.l, c.c * angle.cos, c.c * angle.sin⟩

/-- The color encoded for display, with channels out of gamut moved into the unit interval. -/
def toRgba (c : Oklch) : Rgba :=
  let linear := c.toOklab.toLinear
  Rgba.clamped
    ⟨encodeChannel linear.r, encodeChannel linear.g, encodeChannel linear.b, c.alpha⟩

end Oklch

/-- The polar perceptual form of a color, without its opacity. -/
def Rgba.toOklch (c : Rgba) : Oklch :=
  (LinearRgb.ofRgba c).toOklab.toOklch

end ClassLint
