import ClassLint.Color.Oklab
import ClassLint.Decimal.Reading
import ClassLint.Text.Blank

/-!
# Written opacities and OKLCH colors

An opacity suffix is a number or a percentage, possibly in square brackets.  An OKLCH
color is written `oklch(L C H)` or `oklch(L C H / A)`; underscores count as blanks, and
the slash separates also without blanks around it.
-/

namespace ClassLint

/-- A finite number, or a hundredth of one when a percent sign follows it. -/
def readPercentOrNumber? (s : Text) : Option Float :=
  match s.dropTail? ['%'] with
  | some number => (Decimal.readFloat? number).map fun x => x / 100.0
  | none => Decimal.readFloat? s

/-- The opacity of a suffix; numbers above one are percentages. -/
def readOpacity? (raw : Text) : Option Float :=
  let trimmed := raw.trim
  let inner := (trimmed.between? ['['] [']']).getD trimmed
  let number := (inner.dropTail? ['%']).getD inner
  let isPercentage := (inner.dropTail? ['%']).isSome
  (Decimal.readFloat? number).map fun x =>
    clampUnit (if isPercentage || x > 1.0 then x / 100.0 else x)

/-- The words of the inside of an OKLCH color; a slash is always a word. -/
def oklchWords (body : Text) : List Text :=
  Text.words (body.flatMap fun c => if c = '/' then [' ', '/', ' '] else [c])

/-- The words before and, if there is one, after the first slash. -/
def splitAtSlash : List Text → List Text × Option (List Text)
  | [] => ([], none)
  | w :: ws =>
      if w = ['/'] then ([], some ws)
      else
        let (before, after) := splitAtSlash ws
        (w :: before, after)

/-- The number of a hue, which may carry its unit. -/
def readHue? (s : Text) : Option Float :=
  Decimal.readFloat? ((s.dropTail? "deg".toList).getD s)

/-- The opacity after a slash, which has to be one word; full opacity without a slash. -/
def readOklchAlpha? : Option (List Text) → Option Float
  | none => some 1.0
  | some [alpha] => readPercentOrNumber? alpha
  | some _ => none

/-- The color of an OKLCH notation. -/
def Oklch.ofText? (raw : Text) : Option Oklch :=
  let normal := Text.lower (raw.trim.map fun c => if c = '_' then ' ' else c)
  (normal.between? "oklch(".toList [')']).bind fun body =>
    match splitAtSlash (oklchWords body) with
    | ([l, c, h], alpha) =>
        match readPercentOrNumber? l, Decimal.readFloat? c, readHue? h, readOklchAlpha? alpha with
        | some l, some c, some h, some a => some (Oklch.normalized l c h a)
        | _, _, _, _ => none
    | _ => none

end ClassLint
