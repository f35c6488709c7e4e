import ClassLint.Proofs.Color.OklchWords
import ClassLint.Proofs.Decimal.Reading

/-!
# The layout of OKLCH colors

What the reader takes apart by its words is described here by what stands in the text: channels with
gaps of blanks and underscores between them, and at most one slash with an opacity behind it.  Words
and layout determine each other, except for the case of letters and the width of gaps, and neither
of them has an influence on the numbers.

**Results.**
* `splitAtSlash_layoutWords`, `exists_isOklchBody`: words and bodies in both directions.
* `oklch_layout`: a color is read exactly where the layout is kept, and from its fields alone.
-/

namespace ClassLint

/-! ## The grammar of a color -/

/-- The fields that a color is written with. -/
structure OklchFields where
  l : Text
  c : Text
  h : Text
  alpha : Option Text
deriving DecidableEq

/-- Three channels, with gaps between and, if there are any, around them. -/
def IsChannels (l c h inner : Text) : Prop :=
  IsField l ∧ IsField c ∧ IsField h ∧
    ∃ before first second after,
      IsGap before ∧ IsGap first ∧ first ≠ [] ∧ IsGap second ∧ second ≠ [] ∧ IsGap after ∧
        inner = before ++ (l ++ (first ++ (c ++ (second ++ (h ++ after)))))

/-- What stands between the parentheses: three channels, and possibly a slash and an opacity. -/
inductive IsOklchBody : OklchFields → Text → Prop
  | channels
      {l c h inner : Text}
      (hinner : IsChannels l c h inner) :
      IsOklchBody ⟨l, c, h, none⟩ inner
  | withOpacity
      {l c h inner before alpha after : Text}
      (hinner : IsChannels l c h inner)
      (hbefore : IsGap before)
      (halpha : IsField alpha)
      (hafter : IsGap after) :
      IsOklchBody ⟨l, c, h, some alpha⟩ (inner ++ '/' :: (before ++ (alpha ++ after)))

/-- The name of the notation in any case, and the body in parentheses. -/
def IsOklchLayout (fields : OklchFields) (s : Text) : Prop :=
  ∃ name body, name.lower = "oklch(".toList ∧ IsOklchBody fields body ∧
    s = name ++ (body ++ [')'])

theorem layoutWords_channels
    {l c h inner s : Text}
    (hinner : IsChannels l c h inner)
    (hs : EndsField s) :
    layoutWords (inner ++ s) = l.lower :: c.lower :: h.lower :: layoutWords s := by
  obtain ⟨hl, hc, hh, g₁, g₂, g₃, g₄, hg₁, hg₂, hne₂, hg₃, hne₃, hg₄, rfl⟩ := hinner
  simp only [List.append_assoc]
  rw [layoutWords_gap hg₁, layoutWords_field hl (endsField_of_isGap hg₂ hne₂ _),
    layoutWords_gap hg₂, layoutWords_field hc (endsField_of_isGap hg₃ hne₃ _),
    layoutWords_gap hg₃, layoutWords_field hh (endsField_gap_append hg₄ hs), layoutWords_gap hg₄]

/-- Three words that are no slashes come from three channels. -/
theorem exists_channels_of_layoutWords
    {s l c h : Text} {ws : List Text}
    (hl : l ≠ ['/'])
    (hc : c ≠ ['/'])
    (hh : h ≠ ['/'])
    (hwords : layoutWords s = l :: c :: h :: ws) :
    ∃ l' c' h' front rest, (∀ after, IsGap after → IsChannels l' c' h' (front ++ after)) ∧
      s = front ++ rest ∧ l'.lower = l ∧ c'.lower = c ∧ h'.lower = h ∧ layoutWords rest = ws := by
  obtain ⟨g₁, l', s₁, hg₁, hl', hs₁, rfl, hlower₁, h₁⟩ := field_of_layoutWords hl hwords
  obtain ⟨g₂, c', s₂, hg₂, hc', hs₂, rfl, hlower₂, h₂⟩ := field_of_layoutWords hc h₁
  obtain ⟨g₃, h', s₃, hg₃, hh', hs₃, rfl, hlower₃, h₃⟩ := field_of_layoutWords hh h₂
  have hne₂ : g₂ ≠ [] := ne_nil_of_endsField hc' hs₁
  have hne₃ : g₃ ≠ [] := ne_nil_of_endsField hh' hs₂
  refine ⟨l', c', h', g₁ ++ (l' ++ (g₂ ++ (c' ++ (g₃ ++ h')))), s₃, ?_, ?_, hlower₁, hlower₂,
    hlower₃, h₃⟩
  · intro after hafter
    refine ⟨hl', hc', hh', g₁, g₂, g₃, after, hg₁, hg₂, hne₂, hg₃, hne₃, hafter, ?_⟩
    simp only [List.append_assoc]
  · simp only [List.append_assoc]

theorem splitAtSlash_of_ne
    {before : List Text}
    (h : ∀ w ∈ before, w ≠ ['/']) :
    splitAtSlash before = (before, none) ∧
      ∀ after, splitAtSlash (before ++ ['/'] :: after) = (before, some after) := by
  induction before with
  | nil => exact ⟨rfl, fun _ => rfl⟩
  | cons w before ih =>
      have hw : w ≠ ['/'] := h w List.mem_cons_self
      obtain ⟨halone, hslash⟩ := ih fun v hv => h v (List.mem_cons_of_mem w hv)
      refine ⟨?_, fun after => ?_⟩
      · rw [splitAtSlash, if_neg hw, halone]
      · rw [List.cons_append, splitAtSlash, if_neg hw, hslash]

/-- What is split stands before and after the first slash, or there is no slash. -/
theorem splitAtSlash_cases
    (ws : List Text) :
    (∀ w ∈ (splitAtSlash ws).1, w ≠ ['/']) ∧
      ((splitAtSlash ws).2 = none ∧ ws = (splitAtSlash ws).1 ∨
        ∃ after, (splitAtSlash ws).2 = some after ∧
          ws = (splitAtSlash ws).1 ++ ['/'] :: after) := by
  induction ws with
  | nil => exact ⟨fun w hw => absurd hw List.not_mem_nil, Or.inl ⟨rfl, rfl⟩⟩
  | cons w ws ih =>
      rw [splitAtSlash]
      split
      · next h =>
          subst h
          exact ⟨fun v hv => absurd hv List.not_mem_nil, Or.inr ⟨ws, rfl, rfl⟩⟩
      · next h =>
          obtain ⟨hbefore, hcases⟩ := ih
          refine ⟨?_, ?_⟩
          · intro v hv
            rcases List.mem_cons.1 hv with rfl | hmem
            · exact h
            · exact hbefore v hmem
          · rcases hcases with ⟨hnone, hws⟩ | ⟨after, hsome, hws⟩
            · exact Or.inl ⟨hnone, congrArg (List.cons w) hws⟩
            · exact Or.inr ⟨after, hsome, congrArg (List.cons w) hws⟩

/-- The fields in lower case. -/
def OklchFields.lower (fields : OklchFields) : OklchFields :=
  ⟨fields.l.lower, fields.c.lower, fields.h.lower, fields.alpha.map Text.lower⟩

/-- The words of a body are its fields in lower case. -/
theorem splitAtSlash_layoutWords
    {fields : OklchFields} {body : Text}
    (h : IsOklchBody fields body) :
    splitAtSlash (layoutWords body) =
      ([fields.lower.l, fields.lower.c, fields.lower.h],
        fields.lower.alpha.map fun alpha => [alpha]) := by
  have hne :
      ∀ {l c h inner : Text}, IsChannels l c h inner →
        ∀ w ∈ [l.lower, c.lower, h.lower], w ≠ ['/'] := by
    intro l c h inner hinner w hw
    simp only [List.mem_cons, List.not_mem_nil, or_false] at hw
    rcases hw with rfl | rfl | rfl
    · exact lower_ne_slash_of_isField hinner.1
    · exact lower_ne_slash_of_isField hinner.2.1
    · exact lower_ne_slash_of_isField hinner.2.2.1
  cases h with
  | channels hinner =>
      have hend : EndsField [] := by
        intro c hc
        cases hc
      have hwords := layoutWords_channels hinner hend
      rw [List.append_nil, layoutWords_of_isGap fun c hc => absurd hc List.not_mem_nil] at hwords
      rw [hwords]
      exact (splitAtSlash_of_ne (hne hinner)).1
  | withOpacity hinner hbefore halpha hafter =>
      have hend : ∀ s, EndsField ('/' :: s) := by
        rintro s c ⟨rfl⟩
        exact Or.inr rfl
      have hendAlpha : EndsField (_ ++ []) := endsField_gap_append hafter fun c hc => by cases hc
      rw [List.append_nil] at hendAlpha
      rw [layoutWords_channels hinner (hend _), layoutWords_slash, layoutWords_gap hbefore,
        layoutWords_field halpha hendAlpha, layoutWords_of_isGap hafter]
      exact (splitAtSlash_of_ne (hne hinner)).2 _

/-- Words that make a color come from a body. -/
theorem exists_isOklchBody
    {body l c h : Text} {after : Option (List Text)} {a : Float}
    (hwords : splitAtSlash (layoutWords body) = ([l, c, h], after))
    (halpha : readOklchAlpha? after = some a) :
    ∃ fields, IsOklchBody fields body := by
  obtain ⟨hne, hcases⟩ := splitAtSlash_cases (layoutWords body)
  rw [hwords] at hne hcases
  have hl : l ≠ ['/'] := hne l (by simp)
  have hc : c ≠ ['/'] := hne c (by simp)
  have hh : h ≠ ['/'] := hne h (by simp)
  rcases hcases with ⟨-, hbody⟩ | ⟨ws, hafter, hbody⟩
  · obtain ⟨l', c', h', front, rest, hfront, rfl, -, -, -, hrest⟩ :=
      exists_channels_of_layoutWords hl hc hh hbody
    exact ⟨_, .channels (hfront rest (layoutWords_eq_nil_iff.1 hrest))⟩
  · obtain ⟨l', c', h', front, rest, hfront, rfl, -, -, -, hrest⟩ :=
      exists_channels_of_layoutWords hl hc hh hbody
    obtain ⟨gap, inside, hgap, rfl, hinside⟩ := slash_of_layoutWords hrest
    obtain rfl : after = some ws := hafter
    cases ws with
    | nil => cases halpha
    | cons alpha ws =>
        cases ws with
        | cons _ _ => cases halpha
        | nil =>
            -- A second slash is no number, so the word after the first one is a field.
            have hslash : alpha ≠ ['/'] := by
              rintro rfl
              exact absurd (Option.isSome_of_mem halpha) (by decide)
            obtain ⟨before, v, last, hbefore, hv, -, rfl, -, hlast⟩ :=
              field_of_layoutWords hslash hinside
            refine ⟨⟨l', c', h', some v⟩, ?_⟩
            rw [← List.append_assoc]
            exact .withOpacity (hfront gap hgap) hbefore hv (layoutWords_eq_nil_iff.1 hlast)

/-! ## Numbers with units -/

/-- The text is a number, or a number with a unit in any case behind it that scales it. -/
def IsMeasure (unit : Text) (scale : Float → Float) (s : Text) (x : Float) : Prop :=
  Decimal.readFloat? s = some x ∨
    ∃ number suffix y, s = number ++ suffix ∧ suffix.lower = unit ∧
      Decimal.readFloat? number = some y ∧ x = scale y

/-- The value of a number that may have the given unit. -/
def readMeasure? (unit : Text) (scale : Float → Float) (s : Text) : Option Float :=
  match s.dropTail? unit with
  | some number => (Decimal.readFloat? number).map scale
  | none => Decimal.readFloat? s

theorem readHue?_eq
    (s : Text) :
    readHue? s = readMeasure? "deg".toList id s := by
  unfold readHue? readMeasure?
  cases s.dropTail? "deg".toList with
  | none => rfl
  | some number => exact (Option.map_id' (x := Decimal.readFloat? number)).symm

theorem readMeasure?_lower_eq_some_iff
    {unit s : Text} {scale : Float → Float} {x : Float}
    (hunit : ∃ c ∈ unit, ¬ Decimal.IsNumberChar c) :
    readMeasure? unit scale s.lower = some x ↔ IsMeasure unit scale s x := by
  unfold readMeasure?
  constructor
  · intro h
    split at h
    · next lowered hdrop =>
        obtain ⟨number, suffix, rfl, rfl, hsuffix⟩ :=
          List.map_eq_append_iff.1 (Text.dropTail?_eq_some_iff.1 hdrop)
        obtain ⟨y, hy, rfl⟩ := Option.map_eq_some_iff.1 h
        rw [← Text.lower, Decimal.readFloat?_lower] at hy
        exact Or.inr ⟨number, suffix, y, rfl, hsuffix, hy, rfl⟩
    · rw [Decimal.readFloat?_lower] at h
      exact Or.inl h
  · rintro (h | ⟨number, suffix, y, rfl, hsuffix, hy, rfl⟩)
    · have hnone : Text.dropTail? s.lower unit = none := by
        refine Option.eq_none_iff_forall_ne_some.2 fun front hfront => ?_
        obtain ⟨c, hc, hnumber⟩ := hunit
        have hmem : c ∈ s.lower := by
          rw [Text.dropTail?_eq_some_iff.1 hfront]
          exact List.mem_append_right front hc
        have hread := Decimal.readFloat?_eq_none_of_mem hmem hnumber
        rw [Decimal.readFloat?_lower, h] at hread
        cases hread
      rw [hnone]
      exact (Decimal.readFloat?_lower s).trans h
    · have hdrop : Text.dropTail? (Text.lower (number ++ suffix)) unit = some number.lower := by
        rw [Text.dropTail?_eq_some_iff, Text.lower_append, hsuffix]
      rw [hdrop]
      show (Decimal.readFloat? number.lower).map scale = _
      rw [Decimal.readFloat?_lower, hy]
      rfl

/-- A number, or a percentage, which stands for its hundredth. -/
def IsFraction (s : Text) (x : Float) : Prop :=
  IsMeasure ['%'] (fun y => y / 100.0) s x

/-- A number, possibly of degrees. -/
def IsHue (s : Text) (x : Float) : Prop :=
  IsMeasure "deg".toList id s x

/-- The opacity that is written, and full opacity where none is. -/
def IsOpacity : Option Text → Float → Prop
  | none, a => a = 1.0
  | some s, a => IsFraction s a

theorem readPercentOrNumber?_lower_eq_some_iff
    {s : Text} {x : Float} :
    readPercentOrNumber? s.lower = some x ↔ IsFraction s x :=
  readMeasure?_lower_eq_some_iff ⟨'%', by decide, by decide⟩

theorem readHue?_lower_eq_some_iff
    {s : Text} {x : Float} :
    readHue? s.lower = some x ↔ IsHue s x := by
  rw [readHue?_eq]
  exact readMeasure?_lower_eq_some_iff ⟨'g', by decide, by decide⟩

theorem readOklchAlpha?_lower_eq_some_iff
    {alpha : Option Text} {a : Float} :
    readOklchAlpha? ((alpha.map Text.lower).map fun s => [s]) = some a ↔ IsOpacity alpha a := by
  cases alpha with
  | none => exact ⟨fun h => (Option.some.inj h).symm, fun h => congrArg some h.symm⟩
  | some s => exact readPercentOrNumber?_lower_eq_some_iff

/-! ## Reading a color -/

/-- The color of some fields. -/
def OklchFields.color? (fields : OklchFields) : Option Oklch :=
  match readPercentOrNumber? fields.l, Decimal.readFloat? fields.c, readHue? fields.h,
      readOklchAlpha? (fields.alpha.map fun alpha => [alpha]) with
  | some l, some c, some h, some a => some (Oklch.normalized l c h a)
  | _, _, _, _ => none

theorem folded_eq_append_iff
    {s lowered : Text} :
    s.folded = "oklch(".toList ++ (lowered ++ [')']) ↔
      ∃ name body, name.lower = "oklch(".toList ∧ body.folded = lowered ∧
        s = name ++ (body ++ [')']) := by
  constructor
  · intro h
    obtain ⟨name, rest, rfl, hname, hrest⟩ := List.map_eq_append_iff.1 h
    obtain ⟨body, last, rfl, hbody, hlast⟩ := List.map_eq_append_iff.1 hrest
    obtain ⟨c, rfl, hc⟩ := List.map_eq_singleton_iff.1 hlast
    have hunderscore : '_' ∉ name := by
      intro hmem
      have hblank : foldChar '_' ∈ "oklch(".toList := by
        rw [← hname]
        exact List.mem_map_of_mem hmem
      exact absurd hblank (by decide)
    rw [foldChar_eq_iff (by decide) (by decide)] at hc
    obtain ⟨rfl, -⟩ := hc
    exact ⟨name, body, (folded_of_not_mem hunderscore).symm.trans hname, hbody, rfl⟩
  · rintro ⟨name, body, hname, rfl, rfl⟩
    have hunderscore : '_' ∉ name := by
      intro hmem
      have hlower : Char.toLower '_' ∈ "oklch(".toList := by
        rw [← hname]
        exact List.mem_map_of_mem hmem
      exact absurd hlower (by decide)
    rw [folded_append, folded_append, folded_of_not_mem hunderscore, hname]
    rfl

/-- A text with a layout is read from its fields. -/
theorem ofText?_of_isOklchLayout
    {raw : Text} {fields : OklchFields}
    (h : IsOklchLayout fields raw.trim) :
    Oklch.ofText? raw = fields.lower.color? := by
  obtain ⟨name, body, hname, hbody, htrim⟩ := h
  have hfolded := folded_eq_append_iff.2 ⟨name, body, hname, rfl, htrim⟩
  rw [← Text.between?_eq_some_iff] at hfolded
  unfold Oklch.ofText?
  simp only [lower_map_eq_folded]
  rw [hfolded, Option.bind_some, ← layoutWords, splitAtSlash_layoutWords hbody]
  rfl

/-- Only texts with a layout are read. -/
theorem exists_isOklchLayout
    {raw : Text} {color : Oklch}
    (h : Oklch.ofText? raw = some color) :
    ∃ fields, IsOklchLayout fields raw.trim := by
  unfold Oklch.ofText? at h
  simp only [lower_map_eq_folded] at h
  obtain ⟨lowered, hbetween, hread⟩ := Option.bind_eq_some_iff.1 h
  rw [Text.between?_eq_some_iff, folded_eq_append_iff] at hbetween
  obtain ⟨name, body, hname, rfl, htrim⟩ := hbetween
  rw [← layoutWords] at hread
  split at hread
  · next hwords =>
      split at hread
      · next ha =>
          obtain ⟨fields, hbody⟩ := exists_isOklchBody hwords ha
          exact ⟨fields, name, body, hname, hbody, htrim⟩
      · cases hread
  · cases hread

theorem lower_color?_eq_some_iff
    {fields : OklchFields} {color : Oklch} :
    fields.lower.color? = some color ↔
      ∃ l c h a, IsFraction fields.l l ∧ Decimal.readFloat? fields.c = some c ∧ IsHue fields.h h ∧
        IsOpacity fields.alpha a ∧ color = Oklch.normalized l c h a := by
  simp only [← readPercentOrNumber?_lower_eq_some_iff, ← readHue?_lower_eq_some_iff,
    ← readOklchAlpha?_lower_eq_some_iff, ← Decimal.readFloat?_lower fields.c]
  unfold OklchFields.color? OklchFields.lower
  constructor
  · intro hcolor
    split at hcolor
    · next l c h a hl hc hh ha =>
        exact ⟨l, c, h, a, hl, hc, hh, ha, (Option.some.inj hcolor).symm⟩
    · cases hcolor
  · rintro ⟨l, c, h, a, hl, hc, hh, ha, rfl⟩
    simp only [hl, hc, hh, ha]

/--
**A color is read exactly where the layout is kept.**  The trimmed text has the name of the
notation, in any case, and in parentheses three channels with gaps of blanks and underscores between
them, possibly with a slash and an opacity at the end.  The first channel and the opacity are finite
numbers or percentages, the second is a finite number, and the third one may be in degrees.  The
color is the normalized one of these values, and two texts whose fields differ by the case of
letters at most are read alike, whatever gaps they have.
-/
theorem oklch_layout :
    (∀ raw color,
      Oklch.ofText? raw = some color ↔
        ∃ fields l c h a, IsOklchLayout fields raw.trim ∧ IsFraction fields.l l ∧
          Decimal.readFloat? fields.c = some c ∧ IsHue fields.h h ∧ IsOpacity fields.alpha a ∧
          color = Oklch.normalized l c h a) ∧
    ∀ raw other fields others, IsOklchLayout fields raw.trim → IsOklchLayout others other.trim →
      fields.lower = others.lower → Oklch.ofText? raw = Oklch.ofText? other := by
  refine ⟨fun raw color => ⟨fun h => ?_, ?_⟩, ?_⟩
  · obtain ⟨fields, hlayout⟩ := exists_isOklchLayout h
    rw [ofText?_of_isOklchLayout hlayout, lower_color?_eq_some_iff] at h
    obtain ⟨l, c, hue, a, hvalues⟩ := h
    exact ⟨fields, l, c, hue, a, hlayout, hvalues⟩
  · rintro ⟨fields, l, c, h, a, hlayout, hvalues⟩
    rw [ofText?_of_isOklchLayout hlayout, lower_color?_eq_some_iff]
    exact ⟨l, c, h, a, hvalues⟩
  · intro raw other fields others hlayout hothers hlower
    rw [ofText?_of_isOklchLayout hlayout, ofText?_of_isOklchLayout hothers, hlower]

/-- Capitals, underscores and a slash without blanks against the same color in plain notation. -/
theorem oklch_layout_mixedGaps :
    let mixed := " OKLCH(_62.3%_0.214 _259.8DEG/40%_) ".toList
    let plain := "oklch(62.3% 0.214 259.8deg / 40%)".toList
    Oklch.ofText? mixed = Oklch.ofText? plain ∧ (Oklch.ofText? mixed).isSome = true := by
  intro mixed plain
  let fields : OklchFields :=
    ⟨"62.3%".toList, "0.214".toList, "259.8DEG".toList, some "40%".toList⟩
  let others : OklchFields :=
    ⟨"62.3%".toList, "0.214".toList, "259.8deg".toList, some "40%".toList⟩
  have hmixed : IsOklchLayout fields (Text.trim mixed) := by
    refine ⟨"OKLCH(".toList, "_62.3%_0.214 _259.8DEG/40%_".toList, by decide, ?_, by decide⟩
    have hchannels :
        IsChannels fields.l fields.c fields.h "_62.3%_0.214 _259.8DEG".toList :=
      ⟨by decide, by decide, by decide, ['_'], ['_'], [' ', '_'], [], by decide, by decide,
        by decide, by decide, by decide, by decide, by decide⟩
    exact .withOpacity hchannels (by decide : IsGap []) (by decide) (by decide : IsGap ['_'])
  have hplain : IsOklchLayout others (Text.trim plain) := by
    refine ⟨"oklch(".toList, "62.3% 0.214 259.8deg / 40%".toList, by decide, ?_, by decide⟩
    have hchannels :
        IsChannels others.l others.c others.h "62.3% 0.214 259.8deg ".toList :=
      ⟨by decide, by decide, by decide, [], [' '], [' '], [' '], by decide, by decide, by decide,
        by decide, by decide, by decide, by decide⟩
    exact .withOpacity hchannels (by decide : IsGap [' ']) (by decide) (by decide : IsGap [])
  obtain ⟨l, hl⟩ :=
    Option.isSome_iff_exists.1 (by decide : (Decimal.readFloat? "62.3".toList).isSome = true)
  obtain ⟨c, hc⟩ :=
    Option.isSome_iff_exists.1 (by decide : (Decimal.readFloat? "0.214".toList).isSome = true)
  obtain ⟨h, hh⟩ :=
    Option.isSome_iff_exists.1 (by decide : (Decimal.readFloat? "259.8".toList).isSome = true)
  obtain ⟨a, ha⟩ :=
    Option.isSome_iff_exists.1 (by decide : (Decimal.readFloat? "40".toList).isSome = true)
  have hread : Oklch.ofText? mixed = some (Oklch.normalized (l / 100.0) c h (a / 100.0)) :=
    (oklch_layout.1 mixed _).2 ⟨fields, l / 100.0, c, h, a / 100.0, hmixed,
      Or.inr ⟨"62.3".toList, ['%'], l, by decide, by decide, hl, rfl⟩, hc,
      Or.inr ⟨"259.8".toList, "DEG".toList, h, by decide, by decide, hh, rfl⟩,
      Or.inr ⟨"40".toList, ['%'], a, by decide, by decide, ha, rfl⟩, rfl⟩
  refine ⟨oklch_layout.2 mixed plain fields others hmixed hplain (by decide), ?_⟩
  rw [hread]
  rfl

end ClassLint
