import ClassLint.Utility.Scope

/-!
# Supported variants

The variants of a class that the styling engine understands: interaction states,
states of an enclosing group, breakpoints, platforms, and states of a named or
unnamed peer element.
-/

namespace ClassLint

namespace Variant

/-- Appearance modes and interaction states. -/
def states : List Text :=
  Text.ofStrings ["dark", "light", "focus", "hover", "active", "disabled"]

/-- States of an enclosing group. -/
def groupStates : List Text :=
  Text.ofStrings ["group-hover", "group-focus", "group-active", "group-disabled"]

/-- Minimum screen widths. -/
def breakpoints : List Text :=
  Text.ofStrings ["sm", "md", "lg", "xl", "2xl"]

/-- Target platforms. -/
def platforms : List Text :=
  Text.ofStrings ["ios", "macos", "tvos", "watchos", "visionos"]

/-- States that a peer element can be observed in. -/
def peerStates : List Text :=
  Text.ofStrings ["focus", "hover", "active", "disabled"]

/-- Whether the variant is `peer-STATE` or `peer-STATE/NAME` with a nonempty name. -/
def isPeer (variant : Text) : Bool :=
  match variant.dropLead? "peer-".toList with
  | none => false
  | some observed =>
      match observed.cutAtFirst? '/' with
      | none => peerStates.contains observed
      | some (state, name) => peerStates.contains state && !name.isEmpty

/-- Whether the engine understands the variant. -/
def isSupported (variant : Text) : Bool :=
  states.contains variant || groupStates.contains variant || breakpoints.contains variant ||
    platforms.contains variant || isPeer variant

end Variant

/-- The variants of a class that the engine does not understand, in written order. -/
def ScopedClass.unsupportedVariants (c : ScopedClass) : List Text :=
  c.variants.filter fun v => !Variant.isSupported v

end ClassLint
