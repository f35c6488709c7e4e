import ClassLint.Proofs.Color.Reference

/-!
# Chains of definitions

A color text leads to a definition when it refers to a property or is the name of a theme
color, and the stored value of that definition is the next text.  A chain that comes back to
a definition goes on forever, so following it uses up the definitions that may be followed
however many these are.

The name of a theme color may also be that of a palette shade.  The resolution then takes the
shade where the definition gives nothing, and so it does on a chain that is given up.

**Results.**
* `Leads.exists_longer_of_not_nodup`: a chain that comes back to a definition has continuations
  of every length.
* `follow_of_leads`: what is painted with when the chain is longer than may be followed.
* `resolve_of_long_chain`: a utility on such a chain takes the shade of the last name passed
  that is one, and is unresolved only without such a name.
* `cyclic_definition_paints`: a definition that refers to itself and still gives a color.
-/

namespace ClassLint

namespace Text

/-- The property that the value of a utility refers to, under whatever name. -/
def colorProperty? (value : Text) : Option Text :=
  if value.startsWith ['('] || value.startsWith "var(".toList then value.colorReference?
  else if value.startsWith "--".toList then value.referencedProperty?
  else
    (value.between? ['['] [']']).bind fun inner =>
      let inner := inner.trim.withoutLead "color:".toList
      if inner.isReferenceLead then inner.referencedProperty? else none

/-- How a text that refers to a property begins. -/
def referenceLeads : List Text :=
  ofStrings ["(", "var(", "--", "["]

theorem lead_of_colorProperty?
    {value name : Text}
    (h : value.colorProperty? = some name) :
    ∃ lead ∈ referenceLeads, ∃ rest, value = lead ++ rest := by
  unfold colorProperty? at h
  split at h
  · next hparen =>
      rcases Bool.or_eq_true_iff.1 hparen with hopen | hvar
      · exact ⟨"(".toList, by decide, startsWith_iff.1 hopen⟩
      · exact ⟨"var(".toList, by decide, startsWith_iff.1 hvar⟩
  · split at h
    · next hdashes => exact ⟨"--".toList, by decide, startsWith_iff.1 hdashes⟩
    · obtain ⟨inner, hinner, -⟩ := Option.bind_eq_some_iff.1 h
      exact ⟨"[".toList, by decide, inner ++ [']'], between?_eq_some_iff.1 hinner⟩

/-- A reference is written neither as a hexadecimal color nor as one in OKLCH. -/
theorem not_colorNotation_of_mem_referenceLeads
    {lead : Text}
    (h : lead ∈ referenceLeads)
    (rest : Text) :
    startsWith (lead ++ rest) ['#'] = false ∧
      (lower (lead ++ rest)).startsWith "oklch(".toList = false := by
  simp only [referenceLeads, ofStrings, List.map_cons, List.map_nil, List.mem_cons,
    List.not_mem_nil, or_false] at h
  rcases h with rfl | rfl | rfl | rfl <;> exact ⟨rfl, rfl⟩

end Text

/-- A text that is read as a color, by the place where it stands. -/
inductive ColorText where
  /-- The value of a utility. -/
  | value (v : Text)
  /-- What is stored under a definition. -/
  | stored (raw : Text)
  deriving DecidableEq, Repr

namespace ColorText

/-- What the text says, before any definition is followed. -/
def reading : ColorText → ColorReading
  | value v => .ofValue v
  | stored raw => .ofStored raw

/-- The property that the text refers to, under whatever name. -/
def property? : ColorText → Option Text
  | value v => v.colorProperty?
  | stored raw =>
      if ColorReading.isReferenceForm raw.trim then raw.trim.referencedProperty?
      else raw.trim.colorProperty?

/-- The name of a theme color or a palette shade that the text is. -/
def name? (t : ColorText) : Option Text :=
  match t.reading with
  | .named name => some name
  | _ => none

end ColorText

/-- A custom property in one of the two places where properties are defined. -/
inductive Definition where
  /-- A variable of the caller. -/
  | override (name : Text)
  /-- A variable of the theme. -/
  | theme (name : Text)
  deriving DecidableEq, Repr

namespace ColorScope

/-- The stored value of a definition. -/
def definedValue? (scope : ColorScope) : Definition → Option Text
  | .override name => scope.overrides.get? name
  | .theme name => scope.registry.value? name scope.appearance

/-- The definition that a text leads to: of the property that it refers to, where a variable of
the caller comes before one of the theme, or of the theme color that it names. -/
def definition? (scope : ColorScope) (t : ColorText) : Option Definition :=
  match t.property? with
  | some name =>
      some (if (scope.overrides.get? name).isSome then .override name else .theme name)
  | none => t.name?.map fun name => .theme ("--color-".toList ++ name)

/-- The definitions used, one after the other, on the way from one text to another. -/
inductive Leads (scope : ColorScope) : ColorText → List Definition → ColorText → Prop
  | refl (t : ColorText) :
      Leads scope t [] t
  | step
      {t u : ColorText} {d : Definition} {raw : Text} {ds : List Definition}
      (hdefinition : scope.definition? t = some d)
      (hvalue : scope.definedValue? d = some raw)
      (rest : Leads scope (.stored raw) ds u) :
      Leads scope t (d :: ds) u

/-- The names of theme colors or palette shades that following a reading passes, with at most the
given number of definitions used. -/
def passedNames (scope : ColorScope) : Nat → ColorReading → List Text
  | _, .nothing => []
  | _, .paint _ => []
  | 0, .property _ => []
  | n + 1, .property name =>
      match scope.stored? name with
      | some raw => passedNames scope n (.ofStored raw)
      | none => []
  | 0, .named name => [name]
  | n + 1, .named name =>
      match scope.themeColor? name with
      | some raw => name :: passedNames scope n (.ofStored raw)
      | none => [name]

/-- The palette shade of the last of some names that is the name of one. -/
def lastShade? (names : List Text) : Option Rgba :=
  names.reverse.findSome? Palette.ofToken?

end ColorScope

/-! ## What a text leads to -/

namespace ColorReading

theorem ofReference_eq_property_or_nothing
    (name : Text) :
    ofReference (some name) = .property name ∨ ofReference (some name) = .nothing := by
  simp only [ofReference]
  split
  · exact Or.inr rfl
  · exact Or.inl rfl

theorem ofArbitrary_eq_ofReference
    {inner : Text}
    (h : (inner.trim.withoutLead "color:".toList).isReferenceLead = true) :
    ofArbitrary inner =
      ofReference (inner.trim.withoutLead "color:".toList).referencedProperty? := by
  unfold ofArbitrary
  rw [Text.isReferenceLead] at h
  simp only [h, if_true]

theorem ofValue_of_colorProperty?
    {value name : Text}
    (h : value.colorProperty? = some name) :
    ofValue value = ofReference (some name) := by
  have hne : value.isEmpty = false := by
    cases value with
    | nil => cases h
    | cons c s => rfl
  unfold Text.colorProperty? at h
  unfold ofValue
  rw [hne]
  split at h
  · next hparen =>
      rw [if_pos hparen, h]
      rfl
  · next hparen =>
      rw [if_neg hparen]
      split at h
      · next hdashes =>
          rw [if_pos hdashes, h]
          rfl
      · next hdashes =>
          rw [if_neg hdashes]
          obtain ⟨inner, hinner, hname⟩ := Option.bind_eq_some_iff.1 h
          simp only at hname
          split at hname
          · next hlead =>
              simp only [hinner, ofArbitrary_eq_ofReference hlead, hname]
              rfl
          · cases hname

end ColorReading

namespace ColorText

theorem reading_of_property?
    {t : ColorText} {name : Text}
    (h : t.property? = some name) :
    t.reading = .property name ∨ t.reading = .nothing := by
  cases t with
  | value v =>
      have hreading : reading (.value v) = .ofReference (some name) :=
        ColorReading.ofValue_of_colorProperty? h
      rw [hreading]
      exact ColorReading.ofReference_eq_property_or_nothing name
  | stored raw =>
      simp only [property?] at h
      simp only [reading, ColorReading.ofStored]
      split at h
      · next hform =>
          rw [if_pos hform, h]
          exact Or.inl rfl
      · next hform =>
          rw [if_neg hform]
          obtain ⟨lead, hlead, rest, hsplit⟩ := Text.lead_of_colorProperty? h
          obtain ⟨hhex, hoklch⟩ := Text.not_colorNotation_of_mem_referenceLeads hlead rest
          rw [← hsplit] at hhex hoklch
          simp only [hhex, hoklch, Bool.false_eq_true, if_false]
          rw [ColorReading.ofValue_of_colorProperty? h]
          exact ColorReading.ofReference_eq_property_or_nothing name

theorem reading_of_name?
    {t : ColorText} {name : Text}
    (h : t.name? = some name) :
    t.reading = .named name := by
  unfold name? at h
  split at h
  · next other hreading =>
      cases h
      exact hreading
  · cases h

end ColorText

namespace ColorScope

/-! ## Chains that come back to a definition -/

namespace Leads

variable {scope : ColorScope}

theorem append
    {t u v : ColorText} {ds es : List Definition}
    (first : scope.Leads t ds u)
    (second : scope.Leads u es v) :
    scope.Leads t (ds ++ es) v := by
  induction first with
  | refl t => exact second
  | step hdefinition hvalue _ ih => exact .step hdefinition hvalue (ih second)

/-- Right after a definition a chain stands at its stored value. -/
theorem upTo
    {t u : ColorText} {d : Definition} {raw : Text} {before after : List Definition}
    (h : scope.Leads t (before ++ d :: after) u)
    (hvalue : scope.definedValue? d = some raw) :
    scope.Leads t (before ++ [d]) (.stored raw) := by
  induction before generalizing t with
  | nil =>
      cases h with
      | step hdefinition hother rest =>
          exact .step hdefinition hvalue (.refl _)
  | cons e before ih =>
      cases h with
      | step hdefinition hother rest => exact .step hdefinition hother (ih rest)

/-- A chain from a text to itself can be gone through any number of times. -/
theorem exists_longer_of_loop
    {t : ColorText} {ds : List Definition}
    (h : scope.Leads t ds t)
    (hne : ds ≠ [])
    (n : Nat) :
    ∃ es, scope.Leads t es t ∧ n < es.length := by
  have hpos : 0 < ds.length := List.length_pos_iff.2 hne
  induction n with
  | zero => exact ⟨ds, h, hpos⟩
  | succ n ih =>
      obtain ⟨es, hes, hlength⟩ := ih
      refine ⟨ds ++ es, h.append hes, ?_⟩
      rw [List.length_append]
      omega

theorem exists_longer_of_not_nodup
    {t u : ColorText} {ds : List Definition}
    (h : scope.Leads t ds u)
    (hds : ¬ ds.Nodup)
    (n : Nat) :
    ∃ es v, scope.Leads t es v ∧ n < es.length := by
  induction h with
  | refl t => exact absurd List.nodup_nil hds
  | @step t u d raw ds hdefinition hvalue rest ih =>
      by_cases hd : d ∈ ds
      · -- The chain is at the stored value of `d` here and once more later on.
        obtain ⟨before, after, rfl⟩ := List.append_of_mem hd
        have hloop := rest.upTo hvalue
        obtain ⟨es, hes, hlength⟩ := hloop.exists_longer_of_loop (by simp) n
        refine ⟨d :: es, .stored raw, .step hdefinition hvalue hes, ?_⟩
        rw [List.length_cons]
        omega
      · have hrest : ¬ ds.Nodup := fun hnodup => hds (List.nodup_cons.2 ⟨hd, hnodup⟩)
        obtain ⟨es, v, hes, hlength⟩ := ih hrest
        refine ⟨d :: es, v, .step hdefinition hvalue hes, ?_⟩
        rw [List.length_cons]
        omega

end Leads

/-! ## Following a chain that is too long -/

variable (scope : ColorScope)

theorem stored?_eq_definedValue?
    (name : Text) :
    scope.stored? name =
      scope.definedValue?
        (if (scope.overrides.get? name).isSome then .override name else .theme name) := by
  unfold stored?
  cases hoverride : scope.overrides.get? name with
  | none => rfl
  | some raw => exact hoverride.symm

/-- What one step of a chain says about the reading of its text. -/
theorem reading_of_definition?
    {scope : ColorScope} {t : ColorText} {d : Definition} {raw : Text}
    (hdefinition : scope.definition? t = some d)
    (hvalue : scope.definedValue? d = some raw) :
    t.reading = .nothing ∨
      (∃ name, t.reading = .property name ∧ scope.stored? name = some raw) ∨
      (∃ name, t.reading = .named name ∧ scope.themeColor? name = some raw) := by
  unfold definition? at hdefinition
  cases hproperty : t.property? with
  | some name =>
      simp only [hproperty, Option.some.injEq] at hdefinition
      rcases ColorText.reading_of_property? hproperty with hreading | hreading
      · refine Or.inr (Or.inl ⟨name, hreading, ?_⟩)
        rw [stored?_eq_definedValue?, hdefinition, hvalue]
      · exact Or.inl hreading
  | none =>
      simp only [hproperty] at hdefinition
      obtain ⟨name, hname, rfl⟩ := Option.map_eq_some_iff.1 hdefinition
      exact Or.inr (Or.inr ⟨name, ColorText.reading_of_name? hname, hvalue⟩)

theorem lastShade?_cons
    (name : Text) (names : List Text) :
    lastShade? (name :: names) = (lastShade? names).or (Palette.ofToken? name) := by
  unfold lastShade?
  rw [List.reverse_cons, List.findSome?_append]
  cases names.reverse.findSome? Palette.ofToken? <;> simp

theorem lastShade?_eq_none_iff
    {names : List Text} :
    lastShade? names = none ↔ ∀ name ∈ names, Palette.ofToken? name = none := by
  unfold lastShade?
  rw [List.findSome?_eq_none_iff]
  simp only [List.mem_reverse]

theorem follow_succ_property
    {name raw : Text}
    (h : scope.stored? name = some raw)
    (n : Nat) :
    scope.follow (n + 1) (.property name) = scope.follow n (.ofStored raw) := by
  rw [follow, h, Option.bind_some]

theorem follow_succ_named
    {name raw : Text}
    (h : scope.themeColor? name = some raw)
    (n : Nat) :
    scope.follow (n + 1) (.named name) =
      (scope.follow n (.ofStored raw)).or ((Palette.ofToken? name).map .color) := by
  rw [follow, h, Option.bind_some]
  cases scope.follow n (.ofStored raw) <;> rfl

theorem passedNames_succ_property
    {name raw : Text}
    (h : scope.stored? name = some raw)
    (n : Nat) :
    scope.passedNames (n + 1) (.property name) = scope.passedNames n (.ofStored raw) := by
  simp only [passedNames, h]

theorem passedNames_succ_named
    {name raw : Text}
    (h : scope.themeColor? name = some raw)
    (n : Nat) :
    scope.passedNames (n + 1) (.named name) = name :: scope.passedNames n (.ofStored raw) := by
  simp only [passedNames, h]

/-- When the definitions run out, only the names passed can still give a color, the last one
first. -/
theorem follow_of_leads
    {t u : ColorText} {ds : List Definition} {n : Nat}
    (h : scope.Leads t ds u)
    (hlong : n < ds.length) :
    scope.follow n t.reading = (lastShade? (scope.passedNames n t.reading)).map .color := by
  induction h generalizing n with
  | refl t => exact absurd hlong (Nat.not_lt_zero n)
  | @step t u d raw ds hdefinition hvalue rest ih =>
      have hreading := reading_of_definition? hdefinition hvalue
      cases n with
      | zero =>
          rcases hreading with hreading | ⟨name, hreading, -⟩ | ⟨name, hreading, -⟩
          · rw [hreading]
            rfl
          · rw [hreading]
            rfl
          · rw [hreading, follow, passedNames, lastShade?_cons]
            rfl
      | succ n =>
          have hrest :
              scope.follow n (.ofStored raw) =
                (lastShade? (scope.passedNames n (.ofStored raw))).map .color :=
            ih (Nat.lt_of_succ_lt_succ hlong)
          rcases hreading with hreading | ⟨name, hreading, hraw⟩ | ⟨name, hreading, hraw⟩
          · rw [hreading]
            rfl
          · rw [hreading, follow_succ_property scope hraw, passedNames_succ_property scope hraw]
            exact hrest
          · rw [hreading, follow_succ_named scope hraw, passedNames_succ_named scope hraw,
              lastShade?_cons, hrest, Option.map_or]

/-- A chain that comes back to a definition is longer than may be followed. -/
theorem Leads.exists_longer_than_maxDefinitions
    {scope : ColorScope} {t u : ColorText} {ds : List Definition}
    (h : scope.Leads t ds u)
    (hlong : ¬ ds.Nodup ∨ maxDefinitions < ds.length) :
    ∃ es v, scope.Leads t es v ∧ maxDefinitions < es.length := by
  rcases hlong with hrepeats | hlength
  · exact h.exists_longer_of_not_nodup hrepeats maxDefinitions
  · exact ⟨ds, u, h, hlength⟩

/-! ## Utilities on such chains -/

theorem ofPaint_eq_unresolved_iff
    {opacity : Option Float} {paint : Option Paint} :
    ColorResolution.ofPaint opacity paint = .unresolved ↔ paint = none := by
  cases paint with
  | none => exact ⟨fun _ => rfl, fun _ => rfl⟩
  | some p =>
      constructor
      · intro h
        cases p <;> cases h
      · intro h
        cases h

/-- A utility whose opacity can be read resolves as its value does. -/
theorem resolve_append
    (family raw : Text)
    (hopacity : ∀ suffix ∈ raw.splitOpacity.2, (readOpacity? suffix).isSome = true) :
    scope.resolve family (family ++ raw) =
      .ofPaint (raw.splitOpacity.2.bind readOpacity?)
        (scope.resolveValue raw.splitOpacity.1) := by
  cases hsplit : raw.splitOpacity with
  | mk value suffix =>
      cases suffix with
      | none => exact scope.resolve_append_of_no_suffix family hsplit
      | some suffix =>
          rw [hsplit] at hopacity
          obtain ⟨opacity, hread⟩ := Option.isSome_iff_exists.1 (hopacity suffix rfl)
          rw [scope.resolve_append_of_suffix family hsplit, Option.bind_some, hread]

/-- **Chains that are given up.**  Where the definitions of a value come back to one of them, or are
more than may be followed, the utility takes the palette shade of the last name passed that is the
name of one.  It is unresolved exactly if no name passed is. -/
theorem resolve_of_long_chain
    (family raw : Text)
    {ds : List Definition} {u : ColorText}
    (hopacity : ∀ suffix ∈ raw.splitOpacity.2, (readOpacity? suffix).isSome = true)
    (hchain : scope.Leads (.value raw.splitOpacity.1) ds u)
    (hlong : ¬ ds.Nodup ∨ maxDefinitions < ds.length) :
    let names := scope.passedNames maxDefinitions (.ofValue raw.splitOpacity.1)
    scope.resolve family (family ++ raw) =
        .ofPaint (raw.splitOpacity.2.bind readOpacity?) ((lastShade? names).map .color) ∧
      (scope.resolve family (family ++ raw) = .unresolved ↔
        ∀ name ∈ names, Palette.ofToken? name = none) := by
  intro names
  obtain ⟨es, v, hlonger, hlength⟩ := hchain.exists_longer_than_maxDefinitions hlong
  have hvalue :
      scope.resolveValue raw.splitOpacity.1 = (lastShade? names).map .color :=
    follow_of_leads scope hlonger hlength
  have hresolve := resolve_append scope family raw hopacity
  rw [hvalue] at hresolve
  refine ⟨hresolve, ?_⟩
  rw [hresolve, ofPaint_eq_unresolved_iff, Option.map_eq_none_iff, lastShade?_eq_none_iff]

/-- The scope of a theme with the given light values. -/
def ofTheme (definitions : List (String × String)) : ColorScope :=
  { overrides := .empty
    registry :=
      { theme := ⟨definitions.map fun v => (v.1.toList, ⟨.color, v.2.toList, none⟩)⟩
        aliases := .empty }
    appearance := .light }

/-- Nine names in a row, the last of them also that of a palette shade. -/
def nineNames : ColorScope :=
  .ofTheme
    [("--color-a", "b"), ("--color-b", "c"), ("--color-c", "d"), ("--color-d", "e"),
     ("--color-e", "f"), ("--color-f", "g"), ("--color-g", "h"), ("--color-h", "red-500"),
     ("--color-red-500", "#000000")]

/-- The chain is given up in front of the black that the theme has for the shade. -/
theorem resolve_of_long_chain_nineNames :
    nineNames.themeColor? "red-500".toList = some "#000000".toList ∧
      nineNames.resolve "bg-".toList "bg-a/50".toList =
        .ofPaint (readOpacity? "50".toList) (some (.color (Palette.ofPacked 0xfb2c36))) := by
  refine ⟨rfl, ?_⟩
  have hchain :
      nineNames.Leads (.value "a".toList)
        (["a", "b", "c", "d", "e", "f", "g", "h", "red-500"].map fun name =>
          .theme ("--color-".toList ++ name.toList))
        (.stored "#000000".toList) :=
    .step rfl rfl (.step rfl rfl (.step rfl rfl (.step rfl rfl (.step rfl rfl
      (.step rfl rfl (.step rfl rfl (.step rfl rfl (.step rfl rfl (.refl _)))))))))
  have hopacity :
      ∀ suffix ∈ (Text.splitOpacity "a/50".toList).2, (readOpacity? suffix).isSome = true := by
    decide
  exact (resolve_of_long_chain nineNames "bg-".toList "a/50".toList
    hopacity hchain (Or.inr (by decide))).1

/-- A theme color that refers to itself under the name of a palette shade. -/
def selfReference : ColorScope :=
  .ofTheme [("--color-red-500", "var(--color-red-500)")]

/-- A definition may come back to itself and its utility still give a color. -/
theorem cyclic_definition_paints :
    ∃ ds u,
      selfReference.Leads (.value "red-500".toList) ds u ∧ ¬ ds.Nodup ∧
        selfReference.resolve "bg-".toList "bg-red-500".toList ≠ .unresolved := by
  refine ⟨[.theme "--color-red-500".toList, .theme "--color-red-500".toList],
    .stored "var(--color-red-500)".toList,
    .step rfl rfl (.step rfl rfl (.refl _)), by decide, ?_⟩
  have hresolve :
      selfReference.resolve "bg-".toList "bg-red-500".toList =
        .color (Palette.ofPacked 0xfb2c36) none := rfl
  rw [hresolve]
  intro h
  cases h

end ColorScope

end ClassLint
