import ClassLint.Proofs.Color.Chain
import ClassLint.Proofs.Theme.NameCheck
import ClassLint.Proofs.Theme.ReferencedName

/-!
# Spellings of a color property

A color utility names a custom property alone, in parentheses, in `var(…)` or in brackets,
with or without a `color:` hint.  Parentheses and brackets are read apart from each other,
the hint is taken away in another place in each of them, and an image in brackets is no
reference at all.  For a plain name all of this comes to the same reference.

**Results.**
* `nameIssue?_color_eq_none_iff`: the check of a color's name is one of its beginning.
* `colorReference?_of_mem_spellings`: each spelling of a name is a reference to it.
* `resolve_of_mem_spellings`, `misnamedColor?_of_mem_spellings`: what is resolved and what is
  checked for a spelling.
* `spellings_agree`: all spellings resolve alike and are checked alike.
-/

namespace ClassLint

namespace Text

/-- Whether the name of a property is that of a color, in letters of any case. -/
def isColorName (name : Text) : Bool :=
  name.lower.startsWith "--color-".toList || name.lower.startsWith "--tw-color-".toList

/-- A name of a custom property without the characters that references are written with. -/
structure IsPlainProperty (name : Text) : Prop where
  dashes : name.continues "--".toList = true
  plain : ∀ c ∈ name, isBlank c = false ∧ c ∉ ",/()[]".toList

/-- What can stand around the name of a property in the value of a color utility. -/
def enclosures : List (Text × Text) :=
  [("(".toList, ")".toList),
   ("var(".toList, ")".toList),
   ("(color:".toList, ")".toList),
   ("[".toList, "]".toList),
   ("[color:".toList, "]".toList),
   ("[var(".toList, ")]".toList),
   ("[color:var(".toList, ")]".toList)]

/-- The ways to write a reference around the name. -/
def spellings (name : Text) : List Text :=
  enclosures.map fun (opening, closing) => opening ++ (name ++ closing)

/-! ## Names and their beginnings -/

theorem nameIssue?_color_eq_none_iff
    {name : Text}
    (hdashes : name.startsWith "--".toList = true)
    (hblank : name.hasBlank = false) :
    TokenKind.color.nameIssue? name = none ↔ name.isColorName = true := by
  have hleads :
      TokenKind.color.nameLeads = ["--color-".toList, "--tw-color-".toList] := rfl
  rw [TokenKind.nameIssue?_eq_none_iff _ hdashes (trim_of_hasBlank hblank), hleads, isColorName,
    Bool.or_eq_true]
  constructor
  · rintro ⟨lead, hlead, hstarts⟩
    rcases List.mem_cons.1 hlead with rfl | hlead
    · exact Or.inl hstarts
    · rw [List.mem_singleton.1 hlead] at hstarts
      exact Or.inr hstarts
  · rintro (hstarts | hstarts)
    · exact ⟨_, List.mem_cons_self, hstarts⟩
    · exact ⟨_, List.mem_cons_of_mem _ List.mem_cons_self, hstarts⟩

/-- The check of a color finds an issue with exactly the names outside of the namespace. -/
theorem isSome_nameIssue?_color
    {name : Text}
    (hdashes : name.startsWith "--".toList = true)
    (hblank : name.hasBlank = false) :
    (TokenKind.color.nameIssue? name).isSome = !name.isColorName := by
  have hissue := nameIssue?_color_eq_none_iff hdashes hblank
  cases hcolor : name.isColorName with
  | true =>
      rw [hissue.2 hcolor]
      rfl
  | false =>
      cases hcheck : TokenKind.color.nameIssue? name with
      | none =>
          rw [hissue.1 hcheck] at hcolor
          cases hcolor
      | some issue => rfl

/-! ## References to a plain property -/

theorem referencedProperty?_of_isPropertyReference
    {name : Text}
    (hreference : name.isPropertyReference = true)
    (hcomma : ',' ∉ name) :
    name.referencedProperty? = some name :=
  referencedProperty?_of_refersTo (isReferable_iff.2 ⟨hreference, hcomma⟩) (.bare (.self name))

theorem referencedProperty?_enclosed
    {opening name : Text}
    (hopening : opening = "(".toList ∨ opening = "var(".toList)
    (hblank : name.hasBlank = false)
    (hcomma : ',' ∉ name) :
    referencedProperty? (opening ++ (name ++ ")".toList)) =
      if name.isPropertyReference then some name else none := by
  rw [referencedProperty?_of_enclosed hopening (trim_parenthesized hopening name),
    upTo_of_not_mem hcomma, trim_of_hasBlank hblank]

theorem colorReference?_parenthesized
    {name : Text}
    (hhint : name.startsWith "color:".toList = false) :
    colorReference? ("(".toList ++ (name ++ ")".toList)) =
      referencedProperty? ("(".toList ++ (name ++ ")".toList)) := by
  have hunhinted : dropLead? ("(".toList ++ (name ++ ")".toList)) "(color:".toList = none := by
    rw [← startsWith_append_singleton (by decide : ')' ∉ "color:".toList) name] at hhint
    exact Option.isNone_iff_eq_none.1 (Option.isSome_eq_false_iff.1 hhint)
  have hbrackets : between? ("(".toList ++ (name ++ ")".toList)) ['['] [']'] = none := rfl
  have hopen : startsWith ("(".toList ++ (name ++ ")".toList)) ['('] = true :=
    startsWith_append _ _
  simp only [colorReference?, hbrackets, hopen, hunhinted, Bool.true_or, if_true]

/-- A reference in brackets, with or without a hint. -/
theorem colorReference?_bracketed
    {hint reference name : Text}
    (hhint : hint ∈ ofStrings ["", "color:"])
    (himage : looksLikeImage (hint ++ reference) = false)
    (hlead : reference.isReferenceLead = true)
    (hproperty : reference.referencedProperty? = some name) :
    colorReference? ("[".toList ++ (hint ++ (reference ++ "]".toList))) = some name := by
  have hinner :
      between? ("[".toList ++ (hint ++ (reference ++ "]".toList))) ['['] [']'] =
        some (hint ++ reference) := by
    rw [between?_eq_some_iff, List.append_assoc]
    rfl
  have hunhinted : withoutLead (hint ++ reference) "color:".toList = reference := by
    simp only [ofStrings, List.map_cons, List.map_nil, List.mem_cons, List.not_mem_nil,
      or_false] at hhint
    rcases hhint with rfl | rfl
    · obtain ⟨lead, rest, rfl, -, -, -, hnone⟩ := isReferenceLead_cases hlead
      change withoutLead (lead ++ rest) "color:".toList = lead ++ rest
      rw [withoutLead, hnone]
      rfl
    · exact withoutLead_append _ _
  rw [isReferenceLead] at hlead
  simp only [colorReference?, hinner, himage, hunhinted, hlead, hproperty, Bool.false_eq_true,
    if_false, if_true]

/-! ## References are no images -/

/-- An image needs a parenthesis of its own behind what a reference begins with. -/
theorem looksLikeImage_reference
    (hint lead : Text) {rest : Text}
    (hhint : hint ∈ ofStrings ["", "color:"])
    (hlead : lead ∈ ofStrings ["--", "var(--"])
    (hrest : '(' ∉ rest) :
    looksLikeImage (hint ++ (lead ++ rest)) = false := by
  have hgradient : hasInside rest.lower "gradient(".toList = false :=
    hasInside_eq_false_of_not_mem (by decide) (not_mem_lower (by decide) hrest)
  have hfront : lower (hint ++ lead) = hint ++ lead ∧ 'g' ∉ hint ++ lead := by
    revert hint
    revert lead
    decide
  have hlower : lower (hint ++ (lead ++ rest)) = hint ++ lead ++ rest.lower := by
    rw [← List.append_assoc, lower, List.map_append]
    exact congrArg (· ++ rest.lower) hfront.1
  have hinside : hasInside (hint ++ lead ++ rest.lower) "gradient(".toList = false :=
    (hasInside_append_of_not_mem hfront.2 "radient(".toList rest.lower).trans hgradient
  have hfirst :
      startsWith (hint ++ lead ++ rest.lower) "url(".toList = false ∧
        startsWith (hint ++ lead ++ rest.lower) "image:".toList = false := by
    simp only [ofStrings, List.map_cons, List.map_nil, List.mem_cons, List.not_mem_nil,
      or_false] at hhint hlead
    rcases hhint with rfl | rfl <;> rcases hlead with rfl | rfl <;> exact ⟨rfl, rfl⟩
  rw [looksLikeImage, hlower, hfirst.1, hfirst.2, hinside]
  rfl

/-! ## Plain properties -/

namespace IsPlainProperty

variable {name : Text}

theorem isPropertyReference
    (h : name.IsPlainProperty) :
    name.isPropertyReference = true := by
  refine Bool.and_eq_true_iff.2 ⟨h.dashes, ?_⟩
  rw [hasBlank, Bool.not_eq_true', List.any_eq_false]
  intro c hc
  rw [(h.plain c hc).1]
  decide

theorem not_mem
    {c : Char}
    (h : name.IsPlainProperty)
    (hc : c ∈ ",/()[]".toList) :
    c ∉ name :=
  fun hmem => (h.plain c hmem).2 hc

/-- Behind its two hyphens a plain name opens no parenthesis. -/
theorem exists_stem
    (h : name.IsPlainProperty) :
    ∃ stem, name = "--".toList ++ stem ∧ '(' ∉ stem := by
  obtain ⟨c, rest, hstem⟩ := continues_iff.1 h.dashes
  have hopen : '(' ∉ name := h.not_mem (by decide)
  rw [hstem, List.mem_append, not_or] at hopen
  exact ⟨c :: rest, hstem, hopen.2⟩

theorem startsWith
    (h : name.IsPlainProperty) :
    name.startsWith "--".toList = true := by
  obtain ⟨stem, hstem, -⟩ := h.exists_stem
  exact startsWith_iff.2 ⟨stem, hstem⟩

theorem hasBlank
    (h : name.IsPlainProperty) :
    name.hasBlank = false := by
  simpa using (Bool.and_eq_true_iff.1 h.isPropertyReference).2

theorem referencedProperty?
    (h : name.IsPlainProperty) :
    name.referencedProperty? = some name :=
  referencedProperty?_of_isPropertyReference h.isPropertyReference (h.not_mem (by decide))

theorem referencedProperty?_enclosed
    {opening : Text}
    (h : name.IsPlainProperty)
    (hopening : opening = "(".toList ∨ opening = "var(".toList) :
    Text.referencedProperty? (opening ++ (name ++ ")".toList)) = some name := by
  rw [Text.referencedProperty?_enclosed hopening h.hasBlank (h.not_mem (by decide)),
    if_pos h.isPropertyReference]

theorem colorReference?_bracketed_name
    (h : name.IsPlainProperty)
    (hint : Text)
    (hhint : hint ∈ ofStrings ["", "color:"]) :
    colorReference? ("[".toList ++ (hint ++ (name ++ "]".toList))) = some name := by
  obtain ⟨stem, hstem, hopen⟩ := h.exists_stem
  apply colorReference?_bracketed hhint _ _ h.referencedProperty?
  · rw [hstem]
    exact looksLikeImage_reference hint "--".toList hhint (by decide) hopen
  · rw [hstem]
    exact Bool.or_eq_true_iff.2 (Or.inr (startsWith_append _ stem))

theorem colorReference?_bracketed_call
    (h : name.IsPlainProperty)
    (hint : Text)
    (hhint : hint ∈ ofStrings ["", "color:"]) :
    colorReference? ("[".toList ++ (hint ++ ("var(".toList ++ (name ++ ")]".toList)))) =
      some name := by
  obtain ⟨stem, hstem, hopen⟩ := h.exists_stem
  have hclosing :
      "var(".toList ++ (name ++ ")]".toList) =
        "var(".toList ++ (name ++ ")".toList) ++ "]".toList := by
    rw [List.append_assoc, List.append_assoc]
    rfl
  rw [hclosing]
  apply colorReference?_bracketed hhint _ _ (h.referencedProperty?_enclosed (Or.inr rfl))
  · have hclose : '(' ∉ stem ++ ")".toList := by
      rw [List.mem_append, not_or]
      exact ⟨hopen, by decide⟩
    rw [hstem]
    exact looksLikeImage_reference hint "var(--".toList hhint (by decide) hclose
  · exact Bool.or_eq_true_iff.2 (Or.inl (startsWith_append _ _))

end IsPlainProperty

theorem colorReference?_of_mem_spellings
    {name spelling : Text}
    (hname : name.IsPlainProperty)
    (hspelling : spelling ∈ name.spellings) :
    spelling.colorReference? = some name := by
  obtain ⟨stem, rfl, -⟩ := hname.exists_stem
  have hparens := hname.referencedProperty?_enclosed (Or.inl rfl)
  have hcall := hname.referencedProperty?_enclosed (Or.inr rfl)
  simp only [spellings, enclosures, List.map_cons, List.map_nil, List.mem_cons, List.not_mem_nil,
    or_false] at hspelling
  rcases hspelling with rfl | rfl | rfl | rfl | rfl | rfl | rfl
  · exact (colorReference?_parenthesized rfl).trans hparens
  · exact hcall
  · exact hparens
  · exact hname.colorReference?_bracketed_name "".toList (by decide)
  · exact hname.colorReference?_bracketed_name "color:".toList (by decide)
  · exact hname.colorReference?_bracketed_call "".toList (by decide)
  · exact hname.colorReference?_bracketed_call "color:".toList (by decide)

theorem colorProperty?_of_isPlainProperty
    {name : Text}
    (h : name.IsPlainProperty) :
    name.colorProperty? = some name := by
  obtain ⟨stem, hstem, -⟩ := h.exists_stem
  have hparens : (name.startsWith ['('] || name.startsWith "var(".toList) = false := by
    rw [hstem]
    rfl
  rw [colorProperty?, hparens, h.startsWith]
  exact h.referencedProperty?

theorem enclosures_without_slash :
    ∀ e ∈ enclosures, '/' ∉ e.1 ∧ '/' ∉ e.2 := by
  decide

theorem head?_of_mem_enclosures :
    ∀ e ∈ enclosures, e.1.head? ∈ "(v[".toList.map some := by
  decide

/-- No part of a spelling is an opacity. -/
theorem not_mem_slash_of_mem_spellings
    {name spelling : Text}
    (hname : name.IsPlainProperty)
    (hspelling : spelling ∈ name :: name.spellings) :
    '/' ∉ spelling := by
  have hslash : '/' ∉ name := hname.not_mem (by decide)
  rcases List.mem_cons.1 hspelling with rfl | henclosed
  · exact hslash
  · obtain ⟨⟨opening, closing⟩, henclosure, rfl⟩ := List.mem_map.1 henclosed
    obtain ⟨hopening, hclosing⟩ := enclosures_without_slash _ henclosure
    simp only [List.mem_append, not_or]
    exact ⟨hopening, hslash, hclosing⟩

theorem colorValue?_append
    {family : Text} {c : Char}
    (hfamily : family ∈ colorFamilies)
    (hc : c ≠ 'o')
    (rest : Text) :
    (family ++ c :: rest).colorValue? = some (c :: rest) := by
  simp only [colorFamilies, ofStrings, List.map_cons, List.map_nil, List.mem_cons,
    List.not_mem_nil, or_false] at hfamily
  rcases hfamily with rfl | rfl | rfl | rfl | rfl | rfl | rfl | rfl | rfl | rfl | rfl | rfl
  all_goals simp [colorValue?, colorFamilies, ofStrings, dropLead?, hc.symm]

/-- A spelling does not go on with the name of a longer family. -/
theorem colorValue?_of_mem_spellings
    {family name spelling : Text}
    (hfamily : family ∈ colorFamilies)
    (hspelling : spelling ∈ name.spellings) :
    (family ++ spelling).colorValue? = some spelling := by
  obtain ⟨⟨opening, closing⟩, henclosure, rfl⟩ := List.mem_map.1 hspelling
  obtain ⟨c, hc, hhead⟩ := List.mem_map.1 (head?_of_mem_enclosures _ henclosure)
  have hne : c ≠ 'o' := by
    rintro rfl
    revert hc
    decide
  cases opening with
  | nil => cases hhead
  | cons b rest =>
      cases hhead
      exact colorValue?_append hfamily hne (rest ++ (name ++ closing))

end Text

namespace ColorReading

theorem ofReference_of_dashes
    {name : Text}
    (hdashes : name.startsWith "--".toList = true)
    (hblank : name.hasBlank = false) :
    ofReference (some name) = if name.isColorName then .property name else .nothing := by
  rw [ofReference, Text.isSome_nameIssue?_color hdashes hblank]
  cases name.isColorName <;> rfl

theorem ofValue_of_mem_spellings
    {name spelling : Text}
    (hname : name.IsPlainProperty)
    (hspelling : spelling ∈ name :: name.spellings) :
    ofValue spelling = ofReference (some name) := by
  rcases List.mem_cons.1 hspelling with rfl | henclosed
  · exact ofValue_of_colorProperty? (Text.colorProperty?_of_isPlainProperty hname)
  · exact ofValue_of_colorReference? (Text.colorReference?_of_mem_spellings hname henclosed)

end ColorReading

namespace ColorScope

/-- A utility without an opacity resolves as its value does. -/
theorem resolve_of_not_mem_slash
    (scope : ColorScope) (family : Text) {raw : Text}
    (hslash : '/' ∉ raw) :
    scope.resolve family (family ++ raw) = .ofPaint none (scope.resolveValue raw) :=
  scope.resolve_append_of_no_suffix family (Text.splitOpacity_of_not_mem hslash)

theorem resolve_of_mem_spellings
    (scope : ColorScope) (family : Text) {name spelling : Text}
    (hname : name.IsPlainProperty)
    (hspelling : spelling ∈ name :: name.spellings) :
    scope.resolve family (family ++ spelling) =
      .ofPaint none (scope.follow maxDefinitions (.ofReference (some name))) := by
  rw [scope.resolve_of_not_mem_slash family
    (Text.not_mem_slash_of_mem_spellings hname hspelling), resolveValue,
    ColorReading.ofValue_of_mem_spellings hname hspelling]

end ColorScope

namespace Text

theorem misnamedColor?_of_mem_spellings
    {family name spelling : Text}
    (hfamily : family ∈ colorFamilies)
    (hname : name.IsPlainProperty)
    (hspelling : spelling ∈ name.spellings) :
    (family ++ spelling).misnamedColor? = if name.isColorName then none else some name := by
  have hslash : '/' ∉ spelling :=
    not_mem_slash_of_mem_spellings hname (List.mem_cons_of_mem name hspelling)
  have hissue := isSome_nameIssue?_color hname.startsWith hname.hasBlank
  rw [misnamedColor?, colorValue?_of_mem_spellings hfamily hspelling, Option.bind_some,
    splitOpacity_of_not_mem hslash, colorReference?_of_mem_spellings hname hspelling,
    Option.bind_some]
  cases hcheck : TokenKind.color.nameIssue? name with
  | none =>
      have hcolor : name.isColorName = true := by simpa [hcheck] using hissue
      rw [if_pos hcolor]
      rfl
  | some issue =>
      have hcolor : name.isColorName = false := by simpa [hcheck] using hissue
      rw [hcolor]
      rfl

end Text

/-- **All spellings of a color property mean the same.**  The name alone and the seven ways to
write a reference around it resolve alike in every scope: as the definitions of the name do if it
is that of a color, and to nothing otherwise.  The check finds the name in each of the seven, and
rejects it in all of them or in none. -/
theorem spellings_agree
    (scope : ColorScope)
    {family name : Text}
    (hfamily : family ∈ colorFamilies)
    (hname : name.IsPlainProperty) :
    (∀ spelling ∈ name.spellings,
      scope.resolve family (family ++ spelling) = scope.resolve family (family ++ name)) ∧
    scope.resolve family (family ++ name) =
      (if name.isColorName then
        .ofPaint none (scope.follow ColorScope.maxDefinitions (.property name))
      else .unresolved) ∧
    ∀ spelling ∈ name.spellings,
      (family ++ spelling).misnamedColor? = if name.isColorName then none else some name := by
  have halone := scope.resolve_of_mem_spellings family hname List.mem_cons_self
  refine ⟨?_, ?_, ?_⟩
  · intro spelling hspelling
    rw [halone]
    exact scope.resolve_of_mem_spellings family hname (List.mem_cons_of_mem name hspelling)
  · rw [halone, ColorReading.ofReference_of_dashes hname.startsWith hname.hasBlank]
    split
    · rfl
    · rw [ColorScope.follow_nothing]
      rfl
  · intro spelling hspelling
    exact Text.misnamedColor?_of_mem_spellings hfamily hname hspelling

/-- A variable of the caller with capitals and a letter beyond ASCII, in a call behind a hint. -/
theorem spellings_agree_upperCase :
    let scope : ColorScope := ⟨⟨[("--TW-Color-é".toList, " inherit".toList)]⟩, .empty, .dark⟩
    "ring-".toList ∈ colorFamilies ∧
      Text.IsPlainProperty "--TW-Color-é".toList ∧
      "[color:var(--TW-Color-é)]".toList ∈ Text.spellings "--TW-Color-é".toList ∧
      scope.resolve "ring-".toList "ring-[color:var(--TW-Color-é)]".toList = .noOverride ∧
      Text.misnamedColor? "ring-[color:var(--TW-Color-é)]".toList = none := by
  intro scope
  have hfamily : "ring-".toList ∈ colorFamilies := by decide
  have hname : Text.IsPlainProperty "--TW-Color-é".toList := ⟨by decide, by simp [isBlank]⟩
  have hspelling :
      "[color:var(--TW-Color-é)]".toList ∈ Text.spellings "--TW-Color-é".toList := by
    decide
  have hcolor : Text.isColorName "--TW-Color-é".toList = true := by decide
  have hutility :
      "ring-[color:var(--TW-Color-é)]".toList =
        "ring-".toList ++ "[color:var(--TW-Color-é)]".toList := by
    decide
  have hpaint :
      scope.follow ColorScope.maxDefinitions (.property "--TW-Color-é".toList) =
        some .unchanged :=
    rfl
  obtain ⟨hsame, halone, hchecked⟩ := spellings_agree scope hfamily hname
  rw [hcolor, if_pos rfl, hpaint] at halone
  refine ⟨hfamily, hname, hspelling, ?_, ?_⟩
  · rw [hutility, hsame _ hspelling, halone]
    rfl
  · rw [hutility, hchecked _ hspelling, hcolor]
    rfl

end ClassLint
