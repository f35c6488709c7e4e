import ClassLint.Color.Written
import ClassLint.Color.Palette
import ClassLint.Theme.Reference
import ClassLint.Theme.Registry

/-!
# Resolving color utilities

The value of a color utility is a custom property, an arbitrary value in brackets, a
keyword, the name of a theme color, or a palette shade.  A custom property has a stored
value, which is read in the same way and may refer to a further property.

What a single text says is its reading; following the definitions from one reading to
the next is a recursion on the number of definitions that may still be used.
-/

namespace ClassLint

/-- What a color utility paints with. -/
inductive Paint where
  /-- A color. -/
  | color (c : Rgba)
  /-- Whatever color the target already has. -/
  | unchanged
  deriving Repr

/-- What a value says without looking at any definition. -/
inductive ColorReading where
  /-- The value is a color or a keyword. -/
  | paint (p : Paint)
  /-- The value refers to a custom property. -/
  | property (name : Text)
  /-- The value is a name: of a theme color if there is one, otherwise of a palette shade. -/
  | named (name : Text)
  /-- The value says nothing. -/
  | nothing
  deriving Repr

namespace ColorReading

/-- A reference in a utility itself, which has to be named as a color. -/
def ofReference : Option Text → ColorReading
  | none => nothing
  | some name => if (TokenKind.color.nameIssue? name).isSome then nothing else property name

/-- The color that a value's notation gives, or nothing. -/
def ofColor? : Option Rgba → ColorReading
  | some c => paint (.color c)
  | none => nothing

/-- The reading of the inside of brackets. -/
def ofArbitrary (raw : Text) : ColorReading :=
  let inner := raw.trim.withoutLead "color:".toList
  if inner.startsWith "var(".toList || inner.startsWith "--".toList then
    ofReference inner.referencedProperty?
  else
    match Oklch.ofText? inner with
    | some c => paint (.color c.toRgba)
    | none => ofColor? (Rgba.ofHex? inner)

/-- The reading of a plain word. -/
def ofWord (value : Text) : ColorReading :=
  if value == "white".toList then paint (.color .white)
  else if value == "black".toList then paint (.color .black)
  else if value == "transparent".toList then paint (.color .transparent)
  else if value == "current".toList || value == "inherit".toList then paint .unchanged
  else named value

/-- The reading of the value of a utility. -/
def ofValue (value : Text) : ColorReading :=
  if value.isEmpty then nothing
  else if value.startsWith ['('] || value.startsWith "var(".toList then
    ofReference value.colorReference?
  else if value.startsWith "--".toList then
    ofReference value.referencedProperty?
  else
    match value.between? ['['] [']'] with
    | some inner => ofArbitrary inner
    | none => ofWord value

/-- Whether a stored value has the form of a reference to a custom property. -/
def isReferenceForm (value : Text) : Bool :=
  value.startsWith "var(".toList || value.startsWith ['('] || value.startsWith "--".toList

/-- The reading of the stored value of a variable; a reference in it may have any name. -/
def ofStored (raw : Text) : ColorReading :=
  let value := raw.trim
  if isReferenceForm value then
    match value.referencedProperty? with
    | some name => property name
    | none => nothing
  else if value.startsWith ['#'] then ofColor? (Rgba.ofHex? value)
  else if value.lower.startsWith "oklch(".toList then
    ofColor? ((Oklch.ofText? value).map Oklch.toRgba)
  else ofValue value

end ColorReading

/-- The definitions that colors are resolved with. -/
structure ColorScope where
  /-- Variables of the caller, which come before those of the theme. -/
  overrides : NameTable Text
  registry : Registry
  appearance : Appearance
  deriving Repr

namespace ColorScope

/-- The stored value of a custom property. -/
def stored? (scope : ColorScope) (name : Text) : Option Text :=
  (scope.overrides.get? name).or (scope.registry.value? name scope.appearance)

/-- The stored value of the theme color of a name. -/
def themeColor? (scope : ColorScope) (name : Text) : Option Text :=
  scope.registry.value? ("--color-".toList ++ name) scope.appearance

/-- The most definitions that are followed for one utility; cycles end here. -/
def maxDefinitions : Nat := 8

/-- What a reading paints with when at most the given number of definitions is used. -/
def follow (scope : ColorScope) : Nat → ColorReading → Option Paint
  | _, .nothing => none
  | _, .paint p => some p
  | 0, .property _ => none
  | n + 1, .property name =>
      (scope.stored? name).bind fun raw => follow scope n (.ofStored raw)
  | 0, .named name => (Palette.ofToken? name).map .color
  | n + 1, .named name =>
      match (scope.themeColor? name).bind fun raw => follow scope n (.ofStored raw) with
      | some p => some p
      | none => (Palette.ofToken? name).map .color

end ColorScope

/-- What a color utility resolves to. -/
inductive ColorResolution where
  /-- A color and the opacity that its suffix asks for. -/
  | color (c : Rgba) (opacity : Option Float)
  /-- The target keeps the color that it has. -/
  | noOverride
  /-- The utility gives no color. -/
  | unresolved
  deriving Repr

namespace ColorResolution

/-- What a paint resolves to under an opacity. -/
def ofPaint (opacity : Option Float) : Option Paint → ColorResolution
  | some (.color c) => color c opacity
  | some .unchanged => noOverride
  | none => unresolved

/-- A color with the opacity of its suffix multiplied in. -/
def applyOpacity (c : Rgba) : Option Float → Rgba
  | some opacity => c.multiplyAlpha opacity
  | none => c

end ColorResolution

namespace ColorScope

/-- Resolves the value of a utility without its opacity suffix. -/
def resolveValue (scope : ColorScope) (value : Text) : Option Paint :=
  scope.follow maxDefinitions (.ofValue value)

/-- Resolves a token of the family with the given beginning. -/
def resolve (scope : ColorScope) (family token : Text) : ColorResolution :=
  match token.dropLead? family with
  | none => .unresolved
  | some raw =>
      match raw.splitOpacity with
      | (value, none) => .ofPaint none (scope.resolveValue value)
      | (value, some suffix) =>
          match readOpacity? suffix with
          | none => .unresolved
          | some opacity => .ofPaint (some opacity) (scope.resolveValue value)

theorem resolve_append_of_no_suffix
    (scope : ColorScope) (family : Text) {raw value : Text}
    (h : raw.splitOpacity = (value, none)) :
    scope.resolve family (family ++ raw) = .ofPaint none (scope.resolveValue value) := by
  have hraw : (family ++ raw).dropLead? family = some raw := Text.dropLead?_eq_some_iff.2 rfl
  simp only [resolve, hraw, h]

theorem resolve_append_of_suffix
    (scope : ColorScope) (family : Text) {raw value suffix : Text}
    (h : raw.splitOpacity = (value, some suffix)) :
    scope.resolve family (family ++ raw) =
      match readOpacity? suffix with
      | none => .unresolved
      | some opacity => .ofPaint (some opacity) (scope.resolveValue value) := by
  have hraw : (family ++ raw).dropLead? family = some raw := Text.dropLead?_eq_some_iff.2 rfl
  simp only [resolve, hraw, h]

/-- Resolves a base utility in the first color family that it belongs to. -/
def resolveUtility (scope : ColorScope) (base : Text) : ColorResolution :=
  match colorFamilies.find? base.startsWith with
  | some family => scope.resolve family base
  | none => .unresolved

end ColorScope

end ClassLint
