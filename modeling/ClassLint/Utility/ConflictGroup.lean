import ClassLint.Utility.Scope

/-!
# Conflict groups

Two utilities of the same conflict group set the same property, so in one scope the
later one overrides the earlier one.  A base utility without a group never conflicts.

Borders are grouped by side and by what is set (width, style or color); paddings are
grouped by edge, where a logical edge shares the group of the physical edge it
coincides with in left-to-right text, and an axis keeps a group of its own.
-/

namespace ClassLint

/-- The part of a border that a utility addresses. -/
inductive BorderSide where
  | all | horizontal | vertical | top | right | bottom | left | inlineStart | inlineEnd
  deriving DecidableEq, Repr

namespace BorderSide

/-- The side that a letter after `border-` stands for. -/
def ofLetter? : Char → Option BorderSide
  | 'x' => some horizontal
  | 'y' => some vertical
  | 't' => some top
  | 'r' => some right
  | 'b' => some bottom
  | 'l' => some left
  | 's' => some inlineStart
  | 'e' => some inlineEnd
  | _ => none

/-- The name of the side in group names. -/
def name : BorderSide → Text
  | all => "all".toList
  | horizontal => "x".toList
  | vertical => "y".toList
  | top => "top".toList
  | right => "right".toList
  | bottom => "bottom".toList
  | left => "left".toList
  | inlineStart => "start".toList
  | inlineEnd => "end".toList

end BorderSide

/-- What a border utility sets. -/
inductive BorderAspect where
  | width | style | color
  deriving DecidableEq, Repr

/-- The name of the aspect in group names. -/
def BorderAspect.name : BorderAspect → Text
  | width => "width".toList
  | style => "style".toList
  | color => "color".toList

/-- The padding that a utility sets. -/
inductive PaddingEdge where
  | all | horizontal | vertical | top | right | bottom | left
  deriving DecidableEq, Repr

/-- The name of the edge in group names. -/
def PaddingEdge.name : PaddingEdge → Text
  | all => "all".toList
  | horizontal => "x".toList
  | vertical => "y".toList
  | top => "top".toList
  | right => "right".toList
  | bottom => "bottom".toList
  | left => "left".toList

/-- A set of utilities that override each other. -/
inductive ConflictGroup where
  | backgroundColor
  | textColor
  | rounded
  | padding (edge : PaddingEdge)
  | border (aspect : BorderAspect) (side : BorderSide)
  | ringWidth
  | ringColor
  | ringInset
  | ringOffsetWidth
  | ringOffsetColor
  | outlineWidth
  | outlineStyle
  | outlineColor
  | outlineOffset
  | shadow
  | opacity
  deriving DecidableEq, Repr

namespace ConflictGroup

/-- The written name of the group. -/
def name : ConflictGroup → Text
  | backgroundColor => "background-color".toList
  | textColor => "text-color".toList
  | rounded => "rounded".toList
  | padding edge => "padding-".toList ++ edge.name
  | border aspect side => "border-".toList ++ aspect.name ++ "-".toList ++ side.name
  | ringWidth => "ring-width".toList
  | ringColor => "ring-color".toList
  | ringInset => "ring-inset".toList
  | ringOffsetWidth => "ring-offset-width".toList
  | ringOffsetColor => "ring-offset-color".toList
  | outlineWidth => "outline-width".toList
  | outlineStyle => "outline-style".toList
  | outlineColor => "outline-color".toList
  | outlineOffset => "outline-offset".toList
  | shadow => "shadow".toList
  | opacity => "opacity".toList

/-- Whether the value is written as a length: with a length hint, or in brackets and beginning
with a digit or a point. -/
def isLength (value : Text) : Bool :=
  value.startsWith "(length:".toList || value.startsWith "[length:".toList ||
    match value with
    | '[' :: c :: _ => c.isDigit || c == '.'
    | _ => false

/-- Whether the value is a width: a run of digits, `px`, or a length. -/
def isWidth (value : Text) : Bool :=
  value == "px".toList || (!value.isEmpty && value.all Char.isDigit) || isLength value

/-- Beginnings of background values that are no colors. -/
def backgroundNonColors : List Text :=
  Text.ofStrings [
    "gradient-", "linear-", "radial-", "conic-", "clip-", "origin-", "blend-", "size-",
    "position-", "repeat", "no-repeat", "[url(", "[image:", "url(", "none", "fixed",
    "local", "scroll", "auto", "cover", "contain", "center", "top", "bottom", "left",
    "right"]

/-- Text values that are no colors: alignments, wrapping, overflow and font sizes. -/
def textNonColors : List Text :=
  Text.ofStrings [
    "left", "center", "right", "justify", "start", "end", "wrap", "nowrap", "balance",
    "pretty", "ellipsis", "clip", "xs", "sm", "base", "lg", "xl", "2xl", "3xl", "4xl",
    "5xl", "6xl", "7xl", "8xl", "9xl"]

/-- Styles of borders and outlines. -/
def lineStyles : List Text :=
  Text.ofStrings ["solid", "dashed", "dotted", "double", "hidden", "none"]

/-- Beginnings of padding utilities and the edge that each one sets. -/
def paddingFamilies : List (Text × PaddingEdge) :=
  [("p-".toList, .all),
   ("px-".toList, .horizontal),
   ("py-".toList, .vertical),
   ("pt-".toList, .top),
   ("pr-".toList, .right),
   ("pe-".toList, .right),
   ("pb-".toList, .bottom),
   ("pl-".toList, .left),
   ("ps-".toList, .left)]

/-- The group of `bg-VALUE`. -/
def ofBackground? (value : Text) : Option ConflictGroup :=
  if value.isEmpty || backgroundNonColors.any value.startsWith then none
  else some .backgroundColor

/-- The group of `text-RAW`, where the raw value may have an opacity suffix. -/
def ofText? (raw : Text) : Option ConflictGroup :=
  let value := raw.splitOpacity.1
  if value.isEmpty || textNonColors.contains value || value.startsWith "shadow".toList ||
      isLength value then none
  else some .textColor

/-- What a border value sets. -/
def borderAspect (value : Text) : BorderAspect :=
  if isWidth value then .width
  else if lineStyles.contains value then .style
  else .color

/-- The group of `border-REST`. -/
def ofBorderRest (rest : Text) : ConflictGroup :=
  match rest with
  | [] => .border (borderAspect []) .all
  | letter :: following =>
      match BorderSide.ofLetter? letter, following with
      | some side, [] => .border .width side
      | some side, '-' :: value => .border (borderAspect value) side
      | _, _ => .border (borderAspect rest) .all

/-- The group of a base that is `border` or begins with `border-`. -/
def ofBorder? (base : Text) : Option ConflictGroup :=
  if base.startsWith "border-spacing".toList || base == "border-collapse".toList ||
      base == "border-separate".toList then none
  else
    match base.dropLead? "border-".toList with
    | none => some (.border .width .all)
    | some rest => some (ofBorderRest rest)

/-- The group of a base that is `ring` or begins with `ring-`. -/
def ofRing (base : Text) : ConflictGroup :=
  if base == "ring-inset".toList then .ringInset
  else
    match base.dropLead? "ring-offset-".toList, base.dropLead? "ring-".toList with
    | some value, _ => if isWidth value then .ringOffsetWidth else .ringOffsetColor
    | none, some value => if isWidth value then .ringWidth else .ringColor
    | none, none => .ringWidth

/-- The group of a base that is `outline` or begins with `outline-`. -/
def ofOutline (base : Text) : ConflictGroup :=
  if base.startsWith "outline-offset-".toList then .outlineOffset
  else
    match base.dropLead? "outline-".toList with
    | none => .outlineWidth
    | some value =>
        if lineStyles.contains value then .outlineStyle
        else if isWidth value then .outlineWidth
        else .outlineColor

/-- Whether the base is the family's name alone or the name followed by a hyphen. -/
def inFamily (base family : Text) : Bool :=
  base == family || base.startsWith (family ++ ['-'])

theorem inFamily_iff
    {base family : Text} :
    inFamily base family = true ↔ base = family ∨ ∃ rest, base = family ++ '-' :: rest := by
  simp [inFamily, Text.startsWith_iff]

/-- The edge that a padding utility sets. -/
def paddingEdge? (base : Text) : Option PaddingEdge :=
  (paddingFamilies.find? fun family => base.continues family.1).map Prod.snd

/-- The conflict group of a base utility. -/
def ofBase? (base : Text) : Option ConflictGroup :=
  match base.dropLead? "bg-".toList, base.dropLead? "text-".toList with
  | some value, _ => ofBackground? value
  | none, some raw => ofText? raw
  | none, none =>
      if inFamily base "rounded".toList then some .rounded
      else
        match paddingEdge? base with
        | some edge => some (.padding edge)
        | none =>
            if inFamily base "border".toList then ofBorder? base
            else if inFamily base "ring".toList then some (ofRing base)
            else if inFamily base "outline".toList then some (ofOutline base)
            else if inFamily base "shadow".toList || inFamily base "drop-shadow".toList then
              some .shadow
            else if base.continues "opacity-".toList then some .opacity
            else none

end ConflictGroup

end ClassLint
