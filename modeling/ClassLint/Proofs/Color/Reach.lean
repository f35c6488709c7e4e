import ClassLint.Proofs.Color.Spelling

/-!
# How far references reach

The stored value of a property may refer to a further property.  Here the chain of names is
taken apart from the definitions left: every name follows from the one before it, and a
resolution with so many definitions goes exactly so many names far.

**Results.**
* `ofStored_of_isLiteral`: a literal is read as what it stands for, whatever is defined.
* `follow_of_nthName?`: each reference uses up one definition.
* `reference_reach`: where the chain of a reference ends decides what it gives.
-/

namespace ClassLint

namespace Text

/-- The keywords of colors and what they paint with. -/
def colorKeywords : List (Text × Paint) :=
  [("white".toList, .color .white),
   ("black".toList, .color .black),
   ("transparent".toList, .color .transparent),
   ("current".toList, .unchanged),
   ("inherit".toList, .unchanged)]

/-- A text that is a color in itself, and what it paints with. -/
inductive IsLiteral : Text → Paint → Prop
  | keyword
      {value : Text} {paint : Paint}
      (h : (value, paint) ∈ colorKeywords) :
      IsLiteral value paint
  | hex
      {value : Text} {c : Rgba}
      (h : Rgba.ofHex? value = some c) :
      IsLiteral value (.color c)
  | oklch
      {value : Text} {c : Oklch}
      (h : Oklch.ofText? value = some c) :
      IsLiteral value (.color c.toRgba)

theorem isPropertyReference_of_isColorName
    {name : Text}
    (hblank : name.hasBlank = false)
    (hcolor : name.isColorName = true) :
    name.isPropertyReference = true := by
  have hlower : ∃ d rest, name.lower = '-' :: '-' :: d :: rest := by
    rcases Bool.or_eq_true_iff.1 hcolor with hstarts | hstarts
    · obtain ⟨rest, hrest⟩ := startsWith_iff.1 hstarts
      exact ⟨'c', "olor-".toList ++ rest, hrest⟩
    · obtain ⟨rest, hrest⟩ := startsWith_iff.1 hstarts
      exact ⟨'t', "w-color-".toList ++ rest, hrest⟩
  obtain ⟨d, rest, hlower⟩ := hlower
  obtain ⟨a, s, rfl, ha, hs⟩ := List.map_eq_cons_iff.1 hlower
  obtain ⟨b, t, rfl, hb, ht⟩ := List.map_eq_cons_iff.1 hs
  obtain ⟨c, u, rfl, -, -⟩ := List.map_eq_cons_iff.1 ht
  obtain rfl : a = '-' := eq_of_toLower_eq (by decide) ha
  obtain rfl : b = '-' := eq_of_toLower_eq (by decide) hb
  refine Bool.and_eq_true_iff.2 ⟨continues_iff.2 ⟨c, u, rfl⟩, ?_⟩
  rw [hblank]
  rfl

/-! ## Literals -/

theorem exists_of_ofHex?
    {value : Text} {c : Rgba}
    (h : Rgba.ofHex? value = some c) :
    ∃ digits, value.trim = '#' :: digits := by
  unfold Rgba.ofHex? Rgba8.ofHex? at h
  split at h
  · next digits htrim => exact ⟨digits, htrim⟩
  · cases h

/-- A beginning without blanks is not changed by reading underscores as blanks. -/
theorem startsWith_lower_of_blankUnderscores
    {s lead rest : Text}
    (hlead : ' ' ∉ lead)
    (h : lower (s.map fun c => if c = '_' then ' ' else c) = lead ++ rest) :
    ∃ tail, s.lower = lead ++ tail := by
  induction lead generalizing s with
  | nil => exact ⟨s.lower, rfl⟩
  | cons b lead ih =>
      cases s with
      | nil => cases h
      | cons c s =>
          obtain ⟨hfirst, hrest⟩ := List.cons_eq_cons.1 h
          have hblank : ' ' ∉ lead := fun hmem => hlead (List.mem_cons_of_mem b hmem)
          obtain ⟨tail, htail⟩ := ih hblank hrest
          have hkept : c ≠ '_' := by
            rintro rfl
            rw [← hfirst] at hlead
            exact hlead List.mem_cons_self
          simp only [if_neg hkept] at hfirst
          refine ⟨tail, ?_⟩
          rw [List.cons_append, ← htail, ← hfirst]
          rfl

theorem exists_of_ofText?
    {value : Text} {c : Oklch}
    (h : Oklch.ofText? value = some c) :
    ∃ tail, value.trim.lower = "oklch(".toList ++ tail := by
  unfold Oklch.ofText? at h
  obtain ⟨body, hbody, -⟩ := Option.bind_eq_some_iff.1 h
  exact startsWith_lower_of_blankUnderscores (by decide) (between?_eq_some_iff.1 hbody)

end Text

namespace ColorReading

open Text

theorem ofStored_keyword
    {raw : Text} {paint : Paint}
    (h : (raw.trim, paint) ∈ colorKeywords) :
    ofStored raw = .paint paint := by
  simp only [colorKeywords, List.mem_cons, Prod.mk.injEq, List.not_mem_nil, or_false] at h
  unfold ofStored
  rcases h with ⟨hraw, rfl⟩ | ⟨hraw, rfl⟩ | ⟨hraw, rfl⟩ | ⟨hraw, rfl⟩ | ⟨hraw, rfl⟩
  all_goals
    rw [hraw]
    rfl

theorem ofStored_hex
    {raw : Text} {c : Rgba}
    (h : Rgba.ofHex? raw.trim = some c) :
    ofStored raw = .paint (.color c) := by
  obtain ⟨digits, htrim⟩ := exists_of_ofHex? h
  rw [trim_trim] at htrim
  have hform : isReferenceForm raw.trim = false := by
    rw [htrim]
    rfl
  have hhash : raw.trim.startsWith ['#'] = true := startsWith_iff.2 ⟨digits, htrim⟩
  simp only [ofStored, hform, hhash, h, Bool.false_eq_true, if_false, if_true]
  rfl

theorem ofStored_oklch
    {raw : Text} {c : Oklch}
    (h : Oklch.ofText? raw.trim = some c) :
    ofStored raw = .paint (.color c.toRgba) := by
  obtain ⟨tail, htail⟩ := exists_of_ofText? h
  rw [trim_trim] at htail
  have hoklch : raw.trim.lower.startsWith "oklch(".toList = true := startsWith_iff.2 ⟨tail, htail⟩
  -- The first character is an `o`, so that no other notation applies.
  obtain ⟨b, rest, hraw, hb⟩ : ∃ b rest, raw.trim = b :: rest ∧ b.toLower = 'o' := by
    cases hraw : raw.trim with
    | nil =>
        rw [hraw] at htail
        cases htail
    | cons b rest =>
        rw [hraw] at htail
        exact ⟨b, rest, rfl, (List.cons_eq_cons.1 htail).1⟩
  have hother : ∀ d ∈ "v(-#".toList, d.toLower ≠ 'o' := by simp
  have hapart : ∀ d ∈ "v(-#".toList, ∀ ds, raw.trim.startsWith (d :: ds) = false := by
    intro d hd ds
    rw [hraw]
    apply startsWith_cons_of_ne
    rintro rfl
    exact hother d hd hb
  have hform : isReferenceForm raw.trim = false := by
    simp only [isReferenceForm, Bool.or_eq_false_iff]
    exact ⟨⟨hapart 'v' (by decide) _, hapart '(' (by decide) _⟩, hapart '-' (by decide) _⟩
  have hhash : raw.trim.startsWith ['#'] = false := hapart '#' (by decide) _
  simp only [ofStored, hform, hhash, hoklch, h, Bool.false_eq_true, if_false, if_true]
  rfl

theorem ofStored_of_isLiteral
    {raw : Text} {paint : Paint}
    (h : raw.trim.IsLiteral paint) :
    ofStored raw = .paint paint := by
  cases h with
  | keyword h => exact ofStored_keyword h
  | hex h => exact ofStored_hex h
  | oklch h => exact ofStored_oklch h

/-- A name in parentheses is read as a reference exactly if it is the name of a color. -/
theorem ofValue_parenthesized
    {name : Text}
    (hblank : name.hasBlank = false)
    (hcomma : ',' ∉ name)
    (hhint : name.startsWith "color:".toList = false) :
    ofValue ("(".toList ++ (name ++ ")".toList)) =
      if name.isColorName then .property name else .nothing := by
  have hopen :
      (startsWith ("(".toList ++ (name ++ ")".toList)) ['('] ||
        startsWith ("(".toList ++ (name ++ ")".toList)) "var(".toList) = true :=
    Bool.or_eq_true_iff.2 (Or.inl (startsWith_append _ _))
  have hvalue :
      ofValue ("(".toList ++ (name ++ ")".toList)) =
        ofReference (if name.isPropertyReference then some name else none) := by
    rw [← referencedProperty?_enclosed (Or.inl rfl) hblank hcomma,
      ← colorReference?_parenthesized hhint]
    unfold ofValue
    rw [if_pos hopen]
    rfl
  rw [hvalue]
  split
  · next hreference =>
      obtain ⟨c, stem, hstem⟩ := continues_iff.1 (Bool.and_eq_true_iff.1 hreference).1
      exact ofReference_of_dashes (startsWith_iff.2 ⟨c :: stem, hstem⟩) hblank
  · next hreference =>
      have hcolor : ¬ name.isColorName = true := fun h =>
        hreference (isPropertyReference_of_isColorName hblank h)
      rw [if_neg hcolor]
      rfl

end ColorReading

namespace ColorScope

/-! ## Chains of names -/

/-- The name in the stored value of a property, where that has the form of a reference. -/
def nextName? (scope : ColorScope) (name : Text) : Option Text :=
  (scope.stored? name).bind fun raw =>
    if ColorReading.isReferenceForm raw.trim then raw.trim.referencedProperty? else none

/-- The name that so many references lead to, one after the other. -/
def nthName? (scope : ColorScope) (name : Text) : Nat → Option Text
  | 0 => some name
  | k + 1 => (scope.nthName? name k).bind scope.nextName?

theorem stored?_of_nextName?
    {scope : ColorScope} {name next : Text}
    (h : scope.nextName? name = some next) :
    ∃ raw, scope.stored? name = some raw ∧ ColorReading.ofStored raw = .property next := by
  obtain ⟨raw, hraw, hnext⟩ := Option.bind_eq_some_iff.1 h
  refine ⟨raw, hraw, ?_⟩
  split at hnext
  · next hform =>
      unfold ColorReading.ofStored
      simp only [hform, hnext, if_true]
  · cases hnext

theorem follow_property_of_stored?
    {scope : ColorScope} {name raw : Text}
    (hraw : scope.stored? name = some raw)
    (n : Nat) :
    scope.follow n (.property name) =
      if 1 ≤ n then scope.follow (n - 1) (.ofStored raw) else none := by
  cases n with
  | zero => rfl
  | succ n => exact follow_succ_property scope hraw n

/-- After some references, the stored value of the last name is read with the definitions left. -/
theorem follow_of_stored?
    {scope : ColorScope} {name last raw : Text} {k n : Nat}
    (hlast :
      scope.follow n (.property name) =
        if k ≤ n then scope.follow (n - k) (.property last) else none)
    (hraw : scope.stored? last = some raw) :
    scope.follow n (.property name) =
      if k + 1 ≤ n then scope.follow (n - (k + 1)) (.ofStored raw) else none := by
  rw [hlast, follow_property_of_stored? hraw]
  by_cases hk : k ≤ n
  · have hleft : 1 ≤ n - k ↔ k + 1 ≤ n := by omega
    simp only [if_pos hk, hleft, Nat.sub_sub]
  · rw [if_neg hk, if_neg (by omega)]

/-- Each reference on the way uses up one definition. -/
theorem follow_of_nthName?
    {scope : ColorScope} {name last : Text} {k : Nat}
    (h : scope.nthName? name k = some last)
    (n : Nat) :
    scope.follow n (.property name) =
      if k ≤ n then scope.follow (n - k) (.property last) else none := by
  induction k generalizing last with
  | zero =>
      cases h
      rfl
  | succ k ih =>
      obtain ⟨middle, hmiddle, hlast⟩ := Option.bind_eq_some_iff.1 h
      obtain ⟨raw, hraw, hreading⟩ := stored?_of_nextName? hlast
      rw [follow_of_stored? (ih hmiddle) hraw, hreading]

theorem follow_of_undefined
    {scope : ColorScope} {name last : Text} {k : Nat}
    (hlast : scope.nthName? name k = some last)
    (hraw : scope.stored? last = none)
    (n : Nat) :
    scope.follow n (.property name) = none := by
  have hnone : ∀ m, scope.follow m (.property last) = none := by
    intro m
    cases m with
    | zero => rfl
    | succ m => rw [follow, hraw, Option.bind_none]
  rw [follow_of_nthName? hlast, hnone, ite_self]

theorem follow_of_nameless
    {scope : ColorScope} {name last raw : Text} {k : Nat}
    (hlast : scope.nthName? name k = some last)
    (hraw : scope.stored? last = some raw)
    (hform : ColorReading.isReferenceForm raw.trim = true)
    (hnone : raw.trim.referencedProperty? = none)
    (n : Nat) :
    scope.follow n (.property name) = none := by
  have hreading : ColorReading.ofStored raw = .nothing := by
    unfold ColorReading.ofStored
    simp only [hform, hnone, if_true]
  rw [follow_of_stored? (follow_of_nthName? hlast n) hraw, hreading, follow_nothing, ite_self]

theorem follow_of_endless
    {scope : ColorScope} {name : Text}
    (h : ∀ k, (scope.nthName? name k).isSome = true)
    (n : Nat) :
    scope.follow n (.property name) = none := by
  obtain ⟨last, hlast⟩ := Option.isSome_iff_exists.1 (h n)
  rw [follow_of_nthName? hlast, if_pos (Nat.le_refl n), Nat.sub_self]
  rfl

/-- What a utility resolves to whose reference begins a chain of names. -/
structure EndsAs (scope : ColorScope) (name : Text) (answer : ColorResolution) : Prop where
  /-- The last name has a literal, which counts if the definitions last up to it. -/
  literal :
    ∀ k last raw paint,
      scope.nthName? name k = some last →
      scope.stored? last = some raw →
      raw.trim.IsLiteral paint →
      answer = if k + 1 ≤ maxDefinitions then .ofPaint none (some paint) else .unresolved
  /-- The last name is not defined. -/
  undefined :
    ∀ k last,
      scope.nthName? name k = some last →
      scope.stored? last = none →
      answer = .unresolved
  /-- The last name has a value of the form of a reference that names no property. -/
  nameless :
    ∀ k last raw,
      scope.nthName? name k = some last →
      scope.stored? last = some raw →
      ColorReading.isReferenceForm raw.trim = true →
      raw.trim.referencedProperty? = none →
      answer = .unresolved
  /-- There is no last name. -/
  endless :
    (∀ k, (scope.nthName? name k).isSome = true) → answer = .unresolved

theorem endsAs_follow
    (scope : ColorScope) (name : Text) :
    scope.EndsAs name (.ofPaint none (scope.follow maxDefinitions (.property name))) where
  literal := by
    intro k last raw paint hlast hraw hliteral
    rw [follow_of_stored? (follow_of_nthName? hlast _) hraw,
      ColorReading.ofStored_of_isLiteral hliteral]
    split
    · next hle =>
        cases maxDefinitions - (k + 1) <;> rfl
    · rfl
  undefined := by
    intro k last hlast hraw
    rw [follow_of_undefined hlast hraw]
    rfl
  nameless := by
    intro k last raw hlast hraw hform hnone
    rw [follow_of_nameless hlast hraw hform hnone]
    rfl
  endless := by
    intro h
    rw [follow_of_endless h]
    rfl

end ColorScope

/-- **How far references reach.**  A utility with a name in parentheses is unresolved unless the
name is that of a color; the names that follow may be any.  Then the end of their chain decides: a
literal counts if no more than eight definitions lead to it, and everything else gives nothing, be
it a name without a definition, a reference without a name, or a chain without an end. -/
theorem reference_reach
    (scope : ColorScope) (family : Text) {name : Text}
    (hblank : name.hasBlank = false)
    (hcomma : ',' ∉ name)
    (hslash : '/' ∉ name) :
    let answer := scope.resolve family (family ++ ("(".toList ++ (name ++ ")".toList)))
    (name.isColorName = false → name.startsWith "color:".toList = false →
      answer = .unresolved) ∧
    (name.isColorName = true → scope.EndsAs name answer) := by
  intro answer
  have hvalue : '/' ∉ "(".toList ++ (name ++ ")".toList) := by
    simp only [List.mem_append, not_or]
    exact ⟨by decide, hslash, by decide⟩
  have hanswer :
      answer =
        .ofPaint none (scope.resolveValue ("(".toList ++ (name ++ ")".toList))) :=
    scope.resolve_of_not_mem_slash family hvalue
  constructor
  · intro hcolor hhint
    rw [hanswer, ColorScope.resolveValue,
      ColorReading.ofValue_parenthesized hblank hcomma hhint, hcolor]
    rfl
  · intro hcolor
    have hhint : name.startsWith "color:".toList = false := by
      obtain ⟨hdashes, -⟩ :=
        Bool.and_eq_true_iff.1 (Text.isPropertyReference_of_isColorName hblank hcolor)
      obtain ⟨c, stem, rfl⟩ := Text.continues_iff.1 hdashes
      rfl
    rw [hanswer, ColorScope.resolveValue,
      ColorReading.ofValue_parenthesized hblank hcomma hhint, if_pos hcolor]
    exact scope.endsAs_follow name

/-- Nine definitions in a row, of which the last seven are not named as colors. -/
def nineDefinitions : ColorScope :=
  .ofTheme
    [("--color-a", " var(--color-b, red) "), ("--color-b", "(--c)"), ("--c", "--d"),
     ("--d", "var(--e)"), ("--e", "var(--f)"), ("--f", "var(--g)"), ("--g", "var(--h)"),
     ("--h", "var(--i)"), ("--i", "inherit")]

/-- The literal counts from the second name on, and from the first it is too far away. -/
theorem reference_reach_nineDefinitions :
    Text.isColorName "--i".toList = false ∧
      nineDefinitions.nthName? "--color-a".toList 8 = some "--i".toList ∧
      nineDefinitions.resolve "fill-".toList "fill-(--color-a)".toList = .unresolved ∧
      nineDefinitions.nthName? "--color-b".toList 7 = some "--i".toList ∧
      nineDefinitions.resolve "fill-".toList "fill-(--color-b)".toList = .noOverride := by
  have hstored : nineDefinitions.stored? "--i".toList = some "inherit".toList := rfl
  have hliteral : Text.IsLiteral (Text.trim "inherit".toList) .unchanged :=
    .keyword (List.mem_of_getElem? (show Text.colorKeywords[4]? = some _ from rfl))
  have hfirst : nineDefinitions.nthName? "--color-a".toList 8 = some "--i".toList := rfl
  have hsecond : nineDefinitions.nthName? "--color-b".toList 7 = some "--i".toList := rfl
  obtain ⟨-, hfar⟩ :=
    reference_reach nineDefinitions "fill-".toList
      (by decide : Text.hasBlank "--color-a".toList = false) (by decide) (by decide)
  obtain ⟨-, hnear⟩ :=
    reference_reach nineDefinitions "fill-".toList
      (by decide : Text.hasBlank "--color-b".toList = false) (by decide) (by decide)
  refine ⟨by decide, hfirst, ?_, hsecond, ?_⟩
  · exact (hfar (by decide)).literal 8 _ _ _ hfirst hstored hliteral
  · exact (hnear (by decide)).literal 7 _ _ _ hsecond hstored hliteral

end ClassLint
