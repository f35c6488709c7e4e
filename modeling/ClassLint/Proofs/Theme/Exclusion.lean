import ClassLint.Proofs.Color.Group
import ClassLint.Proofs.Color.Spelling
import ClassLint.Validation

/-!
# What a base refers to

A base refers to a color, or to a theme token of another kind, or it declares a property.  Each
of these is read on its own.  Most families are for colors only or for tokens only, and a
declaration belongs to no family.  Five families are for both; a token of theirs has the hint
`length`, and no reference to a color begins with that hint.

**Results.**
* `colorReference?_of_lengthHint`: a value with the hint of a length is no color.
* `misnamedColor?_eq_none_of_reference?`: a base that refers to a theme token has no misnamed
  color.
* `readings_of_declaredProperty?`: a declaration refers to neither.
-/

namespace ClassLint

namespace Text

/-! ## Families -/

theorem afterFamily?_eq_some
    {α : Type} {families : List (Text × α)} {base raw : Text} {item : α}
    (h : base.afterFamily? families = some (item, raw)) :
    ∃ lead, (lead, item) ∈ families ∧ base = lead ++ raw := by
  obtain ⟨⟨lead, other⟩, hentry, hrest⟩ := List.exists_of_findSome?_eq_some h
  obtain ⟨rest, hdrop, heq⟩ := Option.map_eq_some_iff.1 hrest
  cases heq
  exact ⟨lead, hentry, dropLead?_eq_some_iff.1 hdrop⟩

theorem afterFamily?_append_eq_none
    {α : Type} {families : List (Text × α)} {lead : Text}
    (h : ∀ entry ∈ families, diverges lead entry.1 = true)
    (rest : Text) :
    (lead ++ rest).afterFamily? families = none := by
  rw [afterFamily?, List.findSome?_eq_none_iff]
  rintro ⟨other, item⟩ hentry
  have hdrop : (lead ++ rest).dropLead? other = none :=
    dropLead?_append_of_diverges (h _ hentry) rest
  simp only [hdrop, Option.map_none]

theorem colorValue?_append_eq_none
    {lead : Text}
    (h : ∀ family ∈ colorFamilies, diverges lead family = true)
    (rest : Text) :
    (lead ++ rest).colorValue? = none := by
  rw [colorValue?, List.findSome?_eq_none_iff]
  intro family hfamily
  exact dropLead?_append_of_diverges (h family hfamily) rest

/-! ## Hints -/

/-- Where a hint is read, it stands behind the opening parenthesis or bracket. -/
theorem append_of_hintedValue?
    {raw hint value : Text}
    (h : raw.hintedValue? = some (some hint, value)) :
    ∃ opening ∈ ['(', '['], ∃ rest, raw = opening :: (hint ++ ':' :: rest) := by
  obtain ⟨inner, hinner, hhint⟩ := Option.map_eq_some_iff.1 h
  have hcut : inner = hint ++ ':' :: value := by
    split at hhint
    · next left right hcut =>
        split at hhint
        · cases hhint
          exact append_of_cutAtFirst? hcut
        · cases hhint
    · cases hhint
  rcases Option.or_eq_some_iff.1 hinner with hparen | ⟨-, hbracket⟩
  · refine ⟨'(', by decide, value ++ [')'], ?_⟩
    rw [between?_eq_some_iff.1 hparen, hcut]
    simp
  · refine ⟨'[', by decide, value ++ [']'], ?_⟩
    rw [between?_eq_some_iff.1 hbracket, hcut]
    simp

theorem colorReference?_of_lengthHint
    {raw value : Text}
    (h : raw.hintedValue? = some (some "length".toList, value)) :
    raw.splitOpacity.1.colorReference? = none := by
  rw [Option.eq_none_iff_forall_ne_some]
  intro name hname
  have hraw : raw.BeginsColor := by
    obtain ⟨tail, hsplit⟩ := raw.splitOpacity_fst_isPrefix
    rw [← hsplit]
    exact (ColorScope.beginsColor_of_colorReference? hname).append tail
  have hparen := hraw.startsWith_special "(length:".toList (by decide)
  have hbracket := hraw.startsWith_special "[length:".toList (by decide)
  obtain ⟨opening, hopening, rest, rfl⟩ := append_of_hintedValue? h
  simp only [List.mem_cons, List.not_mem_nil, or_false] at hopening
  rcases hopening with rfl | rfl
  · rw [show '(' :: ("length".toList ++ ':' :: rest) = "(length:".toList ++ rest from rfl,
      startsWith_append] at hparen
    cases hparen
  · rw [show '[' :: ("length".toList ++ ':' :: rest) = "[length:".toList ++ rest from rfl,
      startsWith_append] at hbracket
    cases hbracket

end Text

namespace TokenKind

open Text

/-! ## Readings of a base -/

theorem lead_mem_colorFamilies :
    ∀ entry ∈ lengthHintedFamilies, entry.1 ∈ colorFamilies := by
  decide

/-- The other families of tokens have no base in common with those of colors. -/
theorem diverges_colorFamilies :
    ∀ entry ∈ families, ∀ family ∈ colorFamilies, diverges entry.1 family = true := by
  decide +kernel

theorem misnamedColor?_of_lengthHint
    {lead raw value : Text} {kind : TokenKind}
    (hfamily : (lead, kind) ∈ lengthHintedFamilies)
    (h : raw.hintedValue? = some (some "length".toList, value)) :
    (lead ++ raw).misnamedColor? = none := by
  have hreference := colorReference?_of_lengthHint h
  obtain ⟨opening, hopening, rest, rfl⟩ := append_of_hintedValue? h
  have hopening : opening ≠ 'o' := by
    rintro rfl
    revert hopening
    decide
  rw [misnamedColor?, colorValue?_append (lead_mem_colorFamilies _ hfamily) hopening,
    Option.bind_some, hreference]
  rfl

theorem misnamedColor?_eq_none_of_reference?
    {base : Text} {token : TokenKind × Text}
    (h : reference? base = some token) :
    base.misnamedColor? = none := by
  rw [reference?] at h
  cases hhinted : base.afterFamily? lengthHintedFamilies with
  | some found =>
      obtain ⟨kind, raw⟩ := found
      rw [hhinted] at h
      obtain ⟨⟨hint, value⟩, hvalue, hreference⟩ := Option.bind_eq_some_iff.1 h
      obtain ⟨lead, hlead, rfl⟩ := afterFamily?_eq_some hhinted
      simp only at hreference
      split at hreference
      · next hlength =>
          rw [beq_iff_eq.1 hlength] at hvalue
          exact misnamedColor?_of_lengthHint hlead hvalue
      · cases hreference
  | none =>
      rw [hhinted] at h
      obtain ⟨⟨kind, raw⟩, hfamily, -⟩ := Option.bind_eq_some_iff.1 h
      obtain ⟨lead, hlead, rfl⟩ := afterFamily?_eq_some hfamily
      rw [misnamedColor?, colorValue?_append_eq_none (diverges_colorFamilies _ hlead)]
      rfl

end TokenKind

/-- A declaration belongs to no family. -/
theorem readings_of_declaredProperty?
    {base property : Text}
    (h : declaredProperty? base = some property) :
    base.misnamedColor? = none ∧ TokenKind.reference? base = none := by
  obtain ⟨inner, hinner, -⟩ := Option.bind_eq_some_iff.1 h
  have hcolors : ∀ family ∈ colorFamilies, Text.diverges ['['] family = true := by decide
  have hhinted :
      ∀ entry ∈ TokenKind.lengthHintedFamilies, Text.diverges ['['] entry.1 = true := by
    decide
  have hfamilies : ∀ entry ∈ TokenKind.families, Text.diverges ['['] entry.1 = true := by
    decide
  rw [Text.between?_eq_some_iff.1 hinner]
  constructor
  · rw [Text.misnamedColor?, Text.colorValue?_append_eq_none hcolors]
    rfl
  · rw [TokenKind.reference?, Text.afterFamily?_append_eq_none hhinted,
      Text.afterFamily?_append_eq_none hfamilies]
    rfl

end ClassLint
