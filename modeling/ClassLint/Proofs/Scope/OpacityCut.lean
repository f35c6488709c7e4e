import ClassLint.Utility.Scope

/-!
# Where a value is cut from its opacity

A text may have many slashes, and brackets that are never closed or never opened.  It is cut
at a slash when what precedes the slash leaves nothing open and what follows it, read on its
own, meets no slash at the outermost depth.  There is at most one such slash, and there is one
as soon as any slash is met at the outermost depth.

**Results.**
* `cutAtSlashFrom?_eq_some_iff`, `cutAtSlashFrom?_eq_none_iff`: the cut that is found, from any
  depth, and when none is found.
* `splitOpacity_characterised`: the same for a whole value, where a suffix is cut no further.
-/

namespace ClassLint

namespace Text

/-- The value and the suffix lie around a slash at the outermost depth, and none follows it. -/
structure IsOpacityCut (s value suffix : Text) : Prop where
  append_eq : s = value ++ '/' :: suffix
  settles : Depth.outermost.after value = Depth.outermost
  not_meets : Depth.meets '/' Depth.outermost suffix = false

/-! ## Cuts from any depth -/

theorem not_meets_of_cutAtSlashFrom?
    {d : Depth} {s : Text}
    (h : cutAtSlashFrom? d s = none) :
    Depth.meets '/' d s = false := by
  induction s generalizing d with
  | nil => rfl
  | cons c s ih =>
      rw [cutAtSlashFrom?] at h
      split at h
      · cases h
      · next hrest =>
          split at h
          · cases h
          · next hc => exact Depth.meets_cons_eq_false_iff.2 ⟨hc, ih hrest⟩

theorem cutAtSlashFrom?_eq_none_iff
    {d : Depth} {s : Text} :
    cutAtSlashFrom? d s = none ↔ Depth.meets '/' d s = false :=
  ⟨not_meets_of_cutAtSlashFrom?, cutAtSlashFrom?_of_not_meets⟩

theorem settles_of_cutAtSlashFrom?
    {d : Depth} {s value suffix : Text}
    (h : cutAtSlashFrom? d s = some (value, suffix)) :
    d.after value = Depth.outermost ∧ Depth.meets '/' Depth.outermost suffix = false := by
  induction s generalizing d value with
  | nil => cases h
  | cons c s ih =>
      rw [cutAtSlashFrom?] at h
      split at h
      · next left right hrest =>
          cases h
          rw [Depth.after_cons]
          exact ih hrest
      · next hrest =>
          split at h
          · next hc =>
              -- The slash leaves the depth as it is, so the suffix is read from the outermost one.
              obtain ⟨rfl, rfl⟩ := hc
              cases h
              exact ⟨rfl, not_meets_of_cutAtSlashFrom? hrest⟩
          · cases h

theorem cutAtSlashFrom?_eq_some_iff
    {d : Depth} {s value suffix : Text} :
    cutAtSlashFrom? d s = some (value, suffix) ↔
      s = value ++ '/' :: suffix ∧ d.after value = Depth.outermost ∧
        Depth.meets '/' Depth.outermost suffix = false := by
  constructor
  · intro h
    exact ⟨append_of_cutAtSlashFrom? h, settles_of_cutAtSlashFrom? h⟩
  · rintro ⟨rfl, hsettles, hmeets⟩
    exact cutAtSlashFrom?_append_slash hsettles hmeets

/-! ## Cuts of a value -/

theorem splitOpacity_eq_some_iff
    {s value suffix : Text} :
    s.splitOpacity = (value, some suffix) ↔ IsOpacityCut s value suffix := by
  have hcut :
      s.splitOpacity = (value, some suffix) ↔
        cutAtSlashFrom? Depth.outermost s = some (value, suffix) := by
    unfold splitOpacity
    cases cutAtSlashFrom? Depth.outermost s <;> simp [Prod.ext_iff]
  rw [hcut, cutAtSlashFrom?_eq_some_iff]
  constructor
  · rintro ⟨happend, hsettles, hmeets⟩
    exact ⟨happend, hsettles, hmeets⟩
  · rintro ⟨happend, hsettles, hmeets⟩
    exact ⟨happend, hsettles, hmeets⟩

theorem splitOpacity_eq_none_iff
    {s value : Text} :
    s.splitOpacity = (value, none) ↔
      value = s ∧ Depth.meets '/' Depth.outermost s = false := by
  rw [← cutAtSlashFrom?_eq_none_iff]
  unfold splitOpacity
  cases cutAtSlashFrom? Depth.outermost s <;> simp [eq_comm]

/--
**The cut of a value.**  A value and a suffix are what a text is cut into exactly when they
lie around a slash, the value leaves nothing open and the suffix meets no slash at the outermost
depth.  No other pair has these properties.  A text is left whole exactly when it meets no slash
at the outermost depth, and every suffix is.
-/
theorem splitOpacity_characterised
    (s : Text) :
    (∀ value suffix,
      s.splitOpacity = (value, some suffix) ↔ IsOpacityCut s value suffix) ∧
    (∀ value suffix value' suffix',
      IsOpacityCut s value suffix → IsOpacityCut s value' suffix' →
        value = value' ∧ suffix = suffix') ∧
    (∀ value,
      s.splitOpacity = (value, none) ↔
        value = s ∧ Depth.meets '/' Depth.outermost s = false) ∧
    (∀ value suffix,
      s.splitOpacity = (value, some suffix) → suffix.splitOpacity = (suffix, none)) := by
  refine ⟨fun _ _ => splitOpacity_eq_some_iff, ?_, fun _ => splitOpacity_eq_none_iff, ?_⟩
  · intro value suffix value' suffix' hcut hcut'
    have hsplit := splitOpacity_eq_some_iff.2 hcut
    rw [splitOpacity_eq_some_iff.2 hcut'] at hsplit
    cases hsplit
    exact ⟨rfl, rfl⟩
  · intro value suffix hsplit
    exact splitOpacity_of_not_meets (splitOpacity_eq_some_iff.1 hsplit).not_meets

/-- Closing brackets without opening ones, and a bracket that is never closed around a slash. -/
theorem splitOpacity_characterised_unbalanced :
    splitOpacity "a]/b)/c[/d".toList = ("a]/b)".toList, some "c[/d".toList) ∧
    splitOpacity "c[/d".toList = ("c[/d".toList, none) ∧
    ∀ value suffix, IsOpacityCut "a]/b)/c[/d".toList value suffix →
      value = "a]/b)".toList ∧ suffix = "c[/d".toList := by
  obtain ⟨hsome, hunique, -, hsuffix⟩ := splitOpacity_characterised "a]/b)/c[/d".toList
  have hcut : IsOpacityCut "a]/b)/c[/d".toList "a]/b)".toList "c[/d".toList :=
    ⟨by decide, by decide, by decide⟩
  have hsplit := (hsome _ _).2 hcut
  exact ⟨hsplit, hsuffix _ _ hsplit, fun value suffix h => hunique _ _ _ _ h hcut⟩

end Text

end ClassLint
