import ClassLint.Theme.TokenName
import ClassLint.Utility.Scope

/-!
# Custom properties in utilities

Which custom property a base utility refers to, and as what: a color utility refers to
a color, and most other utilities refer to a theme token of the kind that belongs to
their family.

A reference is written in parentheses or in square brackets and may carry a hint in
front of a colon, as in `border-(length:--hairline)`.
-/

namespace ClassLint

/-- Beginnings of the utilities that set a color, in the order in which they are tried. -/
def colorFamilies : List Text :=
  Text.ofStrings [
    "ring-offset-", "placeholder-", "decoration-", "outline-", "border-", "accent-",
    "stroke-", "caret-", "text-", "ring-", "fill-", "bg-"]

namespace Text

/-- Whether a bracketed value is an image and not a color. -/
def looksLikeImage (inner : Text) : Bool :=
  let lowered := inner.lower
  lowered.startsWith "url(".toList || lowered.startsWith "image:".toList ||
    lowered.hasInside "gradient(".toList

/-- The custom property that a color value refers to. -/
def colorReference? (value : Text) : Option Text :=
  match value.between? ['['] [']'] with
  | some inner =>
      if inner.looksLikeImage then none
      else
        let inner := inner.withoutLead "color:".toList
        if inner.startsWith "var(".toList || inner.startsWith "--".toList then
          inner.referencedProperty?
        else none
  | none =>
      if value.startsWith ['('] || value.startsWith "var(".toList then
        match value.dropLead? "(color:".toList with
        | some hinted => referencedProperty? ('(' :: hinted)
        | none => value.referencedProperty?
      else none

/-- The rest of a base utility after the first of the given beginnings that it has. -/
def afterFamily? {α : Type} (families : List (Text × α)) (base : Text) : Option (α × Text) :=
  families.findSome? fun (lead, item) => (base.dropLead? lead).map fun rest => (item, rest)

/-- The value of a color utility with its opacity suffix. -/
def colorValue? (base : Text) : Option Text :=
  colorFamilies.findSome? fun lead => base.dropLead? lead

/-- The property that a color utility refers to, when its name is not that of a color. -/
def misnamedColor? (base : Text) : Option Text :=
  (base.colorValue?).bind fun raw =>
    (raw.splitOpacity.1.colorReference?).bind fun property =>
      (TokenKind.color.nameIssue? property).map fun _ => property

/-- A hint in front of a colon: lower case letters and hyphens. -/
def isHint (s : Text) : Bool :=
  !s.isEmpty && s.all fun c => c.isLower || c == '-'

/-- The hint, if any, and the value between the parentheses or brackets around the text. -/
def hintedValue? (raw : Text) : Option (Option Text × Text) :=
  ((raw.between? ['('] [')']).or (raw.between? ['['] [']'])).map fun inner =>
    match inner.cutAtFirst? ':' with
    | some (hint, value) => if hint.isHint then (some hint, value) else (none, inner)
    | none => (none, inner)

end Text

namespace TokenKind

/-- Beginnings of the utilities that take a theme token, with its kind; a longer beginning stands
before each shorter one that it extends. -/
def families : List (Text × TokenKind) :=
  [("drop-shadow-".toList, .shadow),
   ("space-x-".toList, .spacing),
   ("space-y-".toList, .spacing),
   ("duration-".toList, .duration),
   ("inset-x-".toList, .spacing),
   ("inset-y-".toList, .spacing),
   ("tracking-".toList, .tracking),
   ("animate-".toList, .animate),
   ("leading-".toList, .leading),
   ("opacity-".toList, .opacity),
   ("rounded-".toList, .radius),
   ("bottom-".toList, .spacing),
   ("inset-".toList, .spacing),
   ("max-h-".toList, .spacing),
   ("max-w-".toList, .spacing),
   ("min-h-".toList, .spacing),
   ("min-w-".toList, .spacing),
   ("right-".toList, .spacing),
   ("shadow-".toList, .shadow),
   ("start-".toList, .spacing),
   ("delay-".toList, .delay),
   ("gap-x-".toList, .spacing),
   ("gap-y-".toList, .spacing),
   ("left-".toList, .spacing),
   ("size-".toList, .spacing),
   ("blur-".toList, .blur),
   ("ease-".toList, .ease),
   ("font-".toList, .font),
   ("end-".toList, .spacing),
   ("gap-".toList, .spacing),
   ("top-".toList, .spacing),
   ("px-".toList, .spacing),
   ("py-".toList, .spacing),
   ("pt-".toList, .spacing),
   ("pr-".toList, .spacing),
   ("pb-".toList, .spacing),
   ("pl-".toList, .spacing),
   ("ps-".toList, .spacing),
   ("pe-".toList, .spacing),
   ("mx-".toList, .spacing),
   ("my-".toList, .spacing),
   ("mt-".toList, .spacing),
   ("mr-".toList, .spacing),
   ("mb-".toList, .spacing),
   ("ml-".toList, .spacing),
   ("ms-".toList, .spacing),
   ("me-".toList, .spacing),
   ("p-".toList, .spacing),
   ("m-".toList, .spacing),
   ("w-".toList, .spacing),
   ("h-".toList, .spacing),
   ("z-".toList, .zIndex)]

/-- Beginnings of the utilities whose bare custom property is a color, with the kind that a
`length` hint points them at. -/
def lengthHintedFamilies : List (Text × TokenKind) :=
  [("ring-offset-".toList, .ringOffset),
   ("outline-".toList, .outline),
   ("border-".toList, .borderWidth),
   ("ring-".toList, .ring),
   ("text-".toList, .text)]

/-- The kind that a family's token has under a hint. -/
def underHint? (kind : TokenKind) : Option Text → Option TokenKind
  | none => some kind
  | some hint =>
      if hint == "weight".toList && kind == .font then some .fontWeight
      else if hint == "length".toList then some kind
      else none

/-- The theme token that a base utility refers to, with its kind. -/
def reference? (base : Text) : Option (TokenKind × Text) :=
  match base.afterFamily? lengthHintedFamilies with
  | some (kind, raw) =>
      (raw.hintedValue?).bind fun (hint, value) =>
        if hint == some "length".toList then
          (value.referencedProperty?).map fun property => (kind, property)
        else none
  | none =>
      (base.afterFamily? families).bind fun (family, raw) =>
        (raw.hintedValue?).bind fun (hint, value) =>
          (family.underHint? hint).bind fun kind =>
            (value.referencedProperty?).map fun property => (kind, property)

end TokenKind

end ClassLint
