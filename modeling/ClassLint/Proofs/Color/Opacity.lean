import ClassLint.Color.Resolution

/-!
# Opacity suffixes

The opacity of a color utility stands behind the last slash outside of brackets and
parentheses.  What stands before that slash resolves as it does alone, and the opacity is
added to the color that comes out, if it is one.

**Results.**
* `withOpacity_ofPaint`: the opacity of what a value paints with is no part of the paint.
* `opacity_of_suffix`: a suffix changes the opacity only, or makes the utility unresolved.
-/

namespace ClassLint

/-- The resolution with another opacity of its color, if it gives one. -/
def ColorResolution.withOpacity (opacity : Option Float) : ColorResolution → ColorResolution
  | color c _ => color c opacity
  | noOverride => noOverride
  | unresolved => unresolved

theorem ColorResolution.withOpacity_ofPaint
    (opacity other : Option Float) (paint : Option Paint) :
    (ofPaint other paint).withOpacity opacity = ofPaint opacity paint := by
  cases paint with
  | none => rfl
  | some paint => cases paint <;> rfl

namespace ColorScope

variable (scope : ColorScope) (family : Text)

/--
**A suffix changes the opacity only.**  Let a value have no slash outside of its brackets and
parentheses and leave none of them open.  With a suffix that is no opacity it is unresolved.
With one that is, it resolves as it does alone, where it has no opacity, and a color gets the
opacity of the suffix.
-/
theorem opacity_of_suffix
    {value suffix : Text}
    (hvalue : Depth.meets '/' Depth.outermost value = false)
    (hdepth : Depth.outermost.after value = Depth.outermost)
    (hsuffix : Depth.meets '/' Depth.outermost suffix = false) :
    (readOpacity? suffix = none →
      scope.resolve family (family ++ (value ++ '/' :: suffix)) = .unresolved) ∧
    (∀ opacity, readOpacity? suffix = some opacity →
      scope.resolve family (family ++ (value ++ '/' :: suffix)) =
        (scope.resolve family (family ++ value)).withOpacity (some opacity)) ∧
    (scope.resolve family (family ++ value)).withOpacity none =
      scope.resolve family (family ++ value) := by
  have halone :=
    scope.resolve_append_of_no_suffix family (Text.splitOpacity_of_not_meets hvalue)
  have hsuffixed :=
    scope.resolve_append_of_suffix family (Text.splitOpacity_append_slash hdepth hsuffix)
  refine ⟨?_, ?_, ?_⟩
  · intro hnone
    rw [hsuffixed, hnone]
  · intro opacity hopacity
    rw [hsuffixed, hopacity, halone, ColorResolution.withOpacity_ofPaint]
  · rw [halone, ColorResolution.withOpacity_ofPaint]

/-- A slash inside of the value's brackets, one more in the fallback, and a bracketed percentage. -/
theorem opacity_of_suffix_nestedSlashes :
    let scope : ColorScope :=
      ⟨⟨[("--color-brand".toList, "red-500".toList)]⟩, .empty, .light⟩
    Depth.meets '/' Depth.outermost "[var(--color-brand, (a/b)/c)]".toList = false ∧
    Depth.outermost.after "[var(--color-brand, (a/b)/c)]".toList = Depth.outermost ∧
    Depth.meets '/' Depth.outermost "[50%]".toList = false ∧
    (∃ opacity, readOpacity? "[50%]".toList = some opacity ∧
      scope.resolve "bg-".toList "bg-[var(--color-brand, (a/b)/c)]/[50%]".toList =
        .color (Palette.ofPacked 0xfb2c36) (some opacity)) ∧
    scope.resolve "bg-".toList "bg-[var(--color-brand, (a/b)/c)]/half".toList =
      .unresolved := by
  intro scope
  have hvalue : Depth.meets '/' Depth.outermost "[var(--color-brand, (a/b)/c)]".toList = false := by
    decide
  have hdepth :
      Depth.outermost.after "[var(--color-brand, (a/b)/c)]".toList = Depth.outermost := by
    decide
  have hpercentage : Depth.meets '/' Depth.outermost "[50%]".toList = false := by decide
  have hword : Depth.meets '/' Depth.outermost "half".toList = false := by decide
  obtain ⟨opacity, hopacity⟩ :=
    Option.isSome_iff_exists.1 (by decide : (readOpacity? "[50%]".toList).isSome = true)
  have halone :
      scope.resolve "bg-".toList "bg-[var(--color-brand, (a/b)/c)]".toList =
        .color (Palette.ofPacked 0xfb2c36) none :=
    rfl
  refine ⟨hvalue, hdepth, hpercentage, ⟨opacity, hopacity, ?_⟩, ?_⟩
  · have hsuffixed :=
      (scope.opacity_of_suffix "bg-".toList hvalue hdepth hpercentage).2.1 opacity hopacity
    exact hsuffixed.trans (congrArg (ColorResolution.withOpacity (some opacity)) halone)
  · exact (scope.opacity_of_suffix "bg-".toList hvalue hdepth hword).1 (by decide)

end ColorScope

end ClassLint
