import ClassLint.Color.Oklab

/-!
# Mixtures and gradients

Colors between two colors, taken along the shorter arc of hue in OKLCH, and the samples
of a gradient through several stops.
-/

namespace ClassLint

/-- The hues to mix between; a color without chroma takes the hue of the other one. -/
def hueEnds (start finish : Oklch) : Float × Float :=
  if start.c < achromaticChroma then (finish.h, finish.h)
  else if finish.c < achromaticChroma then (start.h, start.h)
  else (start.h, finish.h)

/-- The shorter way from one hue to the other. -/
def shorterArc (fromHue toHue : Float) : Float :=
  let arc := toHue - fromHue
  if arc > 180.0 then arc - 360.0
  else if arc < -180.0 then arc + 360.0
  else arc

/-- The color at the given part of the way from the first color to the second. -/
def mixColors (first second : Rgba) (part : Float) : Rgba :=
  let t := clampUnit part
  let start := first.toOklch
  let finish := second.toOklch
  let (fromHue, toHue) := hueEnds start finish
  (Oklch.normalized
    (start.l + (finish.l - start.l) * t)
    (start.c + (finish.c - start.c) * t)
    (fromHue + shorterArc fromHue toHue * t)
    (first.a + (second.a - first.a) * t)).toRgba

/-- The samples from one stop up to the next, without the next stop itself. -/
def segmentSamples (samples : Nat) (first second : Rgba) : List Rgba :=
  (List.range samples).map fun k => mixColors first second (k.toFloat / samples.toFloat)

/-- The samples of a gradient; every segment has the same number of them, at least one, and the last
stop ends the gradient. -/
def gradient (samples : Nat) : List Rgba → List Rgba
  | [] => []
  | [stop] => [stop]
  | first :: second :: stops =>
      segmentSamples (max samples 1) first second ++ gradient samples (second :: stops)

/-- The number of samples of a segment when none is given. -/
def defaultSamples : Nat := 16

end ClassLint
