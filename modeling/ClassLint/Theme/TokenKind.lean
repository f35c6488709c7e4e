import ClassLint.Text.Basic

/-!
# Kinds of theme tokens

A theme token is a custom property with a kind.  The kind is part of the property's
name: a spacing token is called `--spacing-NAME` or `--tw-spacing-NAME`.
-/

namespace ClassLint

/-- What a theme token is used for. -/
inductive TokenKind where
  | color
  | spacing
  | radius
  | shadow
  | font
  | fontWeight
  | text
  | tracking
  | leading
  | blur
  | duration
  | delay
  | ease
  | animate
  | opacity
  | outline
  | ring
  | ringOffset
  | borderWidth
  | zIndex
  deriving DecidableEq, Repr

namespace TokenKind

/-- Every kind once. -/
def all : List TokenKind :=
  [color, spacing, radius, shadow, font, fontWeight, text, tracking, leading, blur,
   duration, delay, ease, animate, opacity, outline, ring, ringOffset, borderWidth, zIndex]

theorem mem_all
    (kind : TokenKind) :
    kind ∈ all := by
  cases kind <;> decide

/-- The written name of the kind. -/
def name : TokenKind → Text
  | color => "color".toList
  | spacing => "spacing".toList
  | radius => "radius".toList
  | shadow => "shadow".toList
  | font => "font".toList
  | fontWeight => "font-weight".toList
  | text => "text".toList
  | tracking => "tracking".toList
  | leading => "leading".toList
  | blur => "blur".toList
  | duration => "duration".toList
  | delay => "delay".toList
  | ease => "ease".toList
  | animate => "animate".toList
  | opacity => "opacity".toList
  | outline => "outline".toList
  | ring => "ring".toList
  | ringOffset => "ring-offset".toList
  | borderWidth => "border-width".toList
  | zIndex => "z-index".toList

/-- The kind with the given name. -/
def ofName? (s : Text) : Option TokenKind :=
  all.find? fun kind => kind.name == s

/-- The two beginnings that the name of a token of this kind may have. -/
def nameLeads (kind : TokenKind) : List Text :=
  ["--".toList ++ kind.name ++ "-".toList, "--tw-".toList ++ kind.name ++ "-".toList]

end TokenKind

end ClassLint
