import ClassLint.Proofs.Catalog.Sign
import ClassLint.Proofs.Conflict.Family
import ClassLint.Proofs.Conflict.Influence

/-!
# The catalog and the conflict groups

Whether a base exists and which group it has are read off two sets of tables.  A base with a
group goes on after the beginning of a family that the catalog has, or it is in a family whose
name is a utility of its own.  The second kind takes in the name with a hyphen and nothing after
it, which the catalog refuses; the groups know no other base that the catalog does not.

What has no group is in no report.  The bases of the table layout have none, also where the
catalog accepts them for their brackets.

**Results.**
* `isListed_or_mem_bareFamilies_of_ofBase?`: the families of the groups against the catalog.
* `ofBase?_of_isTableLayout`: the table layout has no groups.
* `ofBase?_isSome_and_refused_iff`: the bases with a group that are refused.
* `catalog_agrees_with_groups`: the same, and what it means for reports.
-/

namespace ClassLint

namespace Catalog

open ConflictGroup (inFamily inFamily_iff ofBase? HasForm)

/-! ## Families of both sets of tables -/

/-- The names of families that are utilities of their own, with a hyphen and nothing after it. -/
def bareFamilies : List Text :=
  Text.ofStrings ["rounded-", "border-", "ring-", "outline-", "shadow-", "drop-shadow-"]

/-- A base in the family of a utility is listed, unless nothing follows the hyphen. -/
theorem isListed_or_eq_of_inFamily
    {base name : Text}
    (hname : name ∈ standalone)
    (hfamily : name ++ ['-'] ∈ families)
    (h : inFamily base name = true) :
    isListed base = true ∨ base = name ++ ['-'] := by
  rcases inFamily_iff.1 h with rfl | ⟨rest, rfl⟩
  · left
    rw [isListed, List.contains_iff_mem.2 hname, Bool.true_or]
  · cases rest with
    | nil => exact Or.inr rfl
    | cons c rest =>
        left
        apply isListed_of_continues hfamily
        exact Text.continues_iff.2 ⟨c, rest, by simp⟩

/-- A base in a family with a group is listed, or it is the bare beginning of the family. -/
theorem isListed_or_mem_bareFamilies_of_inFamily
    {base name : Text}
    (hname : name ++ ['-'] ∈ bareFamilies)
    (h : inFamily base name = true) :
    isListed base = true ∨ base ∈ bareFamilies := by
  have htable :
      ∀ family ∈ bareFamilies, family ∈ families ∧ family.dropLast ∈ standalone := by
    decide +kernel
  obtain ⟨hfamily, hstandalone⟩ := htable _ hname
  rw [List.dropLast_concat] at hstandalone
  rcases isListed_or_eq_of_inFamily hstandalone hfamily h with hlisted | rfl
  · exact Or.inl hlisted
  · exact Or.inr hname

theorem inFamily_of_startsWith
    {base name more : Text}
    (h : base.startsWith (name ++ '-' :: more) = true) :
    inFamily base name = true := by
  obtain ⟨rest, rfl⟩ := Text.startsWith_iff.1 h
  exact inFamily_iff.2 (Or.inr ⟨more ++ rest, by simp⟩)

theorem inFamily_border_of_hasForm
    {base : Text} {aspect : BorderAspect} {side : BorderSide}
    (h : HasForm base (.border aspect side)) :
    inFamily base "border".toList = true := by
  cases side with
  | all =>
      rcases h with rfl | ⟨rest, rfl, -⟩
      · exact inFamily_iff.2 (Or.inl rfl)
      · exact inFamily_iff.2 (Or.inr ⟨rest, rfl⟩)
  | _ =>
      -- The letter of a side stands behind the hyphen of the family.
      obtain ⟨letter, -, hside⟩ := h
      exact inFamily_of_startsWith (ConflictGroup.FamilyTest.startsWith_of_inFamily hside)

/-- The form of a base with a group is one that the catalog knows, up to the bare families. -/
theorem isListed_or_mem_bareFamilies_of_hasForm
    {base : Text} {group : ConflictGroup}
    (h : HasForm base group) :
    isListed base = true ∨ base ∈ bareFamilies := by
  cases group with
  | backgroundColor | textColor | opacity =>
      exact Or.inl (isListed_of_continues (by decide +kernel) h)
  | padding edge =>
      have hfamilies : ∀ lead ∈ edge.leads, lead ∈ families := by
        cases edge <;> decide +kernel
      obtain ⟨lead, hlead, hcontinues⟩ := h
      exact Or.inl (isListed_of_continues (hfamilies lead hlead) hcontinues)
  | border aspect side =>
      exact isListed_or_mem_bareFamilies_of_inFamily (by decide) (inFamily_border_of_hasForm h)
  | rounded | ringWidth | ringColor | ringInset | outlineWidth | outlineStyle | outlineColor =>
      exact isListed_or_mem_bareFamilies_of_inFamily (by decide) h
  | ringOffsetWidth | ringOffsetColor =>
      have hring : inFamily base "ring".toList = true := inFamily_of_startsWith h
      exact isListed_or_mem_bareFamilies_of_inFamily (by decide) hring
  | outlineOffset =>
      have houtline : inFamily base "outline".toList = true := inFamily_of_startsWith h
      exact isListed_or_mem_bareFamilies_of_inFamily (by decide) houtline
  | shadow =>
      rcases h with hshadow | hdrop
      · exact isListed_or_mem_bareFamilies_of_inFamily (by decide) hshadow
      · exact isListed_or_mem_bareFamilies_of_inFamily (by decide) hdrop

theorem isListed_or_mem_bareFamilies_of_ofBase?
    {base : Text} {group : ConflictGroup}
    (h : ofBase? base = some group) :
    isListed base = true ∨ base ∈ bareFamilies :=
  isListed_or_mem_bareFamilies_of_hasForm (ConflictGroup.hasForm_of_ofBase? h)

/-! ## Bases without a group -/

/-- No base with a group is written with a sign. -/
theorem head?_ne_of_ofBase?
    {base : Text} {group : ConflictGroup}
    (h : ofBase? base = some group) :
    base.head? ≠ some '-' := by
  intro hhead
  obtain ⟨rest, rfl⟩ := List.head?_eq_some_iff.1 hhead
  have hnone : ofBase? (['-'] ++ rest) = none :=
    ConflictGroup.ofBase?_append_eq_none (by decide) rest
  rw [List.singleton_append, h] at hnone
  cases hnone

theorem ofBase?_of_isBorderTable
    {base : Text}
    (h : isBorderTable base = true) :
    ofBase? base = none := by
  rw [isBorderTable, Bool.or_eq_true] at h
  rcases h with hword | hstarts
  · have hwords : ∀ word ∈ borderTableStandalone, ofBase? word = none := by decide
    exact hwords base (List.contains_iff_mem.1 hword)
  · obtain ⟨rest, rfl⟩ := Text.startsWith_iff.1 hstarts
    have hsplit :
        "border-spacing-".toList ++ rest = "border-".toList ++ ("spacing-".toList ++ rest) := rfl
    have hspacing :
        Text.startsWith ("border-".toList ++ ("spacing-".toList ++ rest))
          "border-spacing".toList = true :=
      Text.startsWith_append "border-spacing".toList ('-' :: rest)
    rw [hsplit, ConflictGroup.ofBase?_border_append, hspacing]
    rfl

/-- The utilities of the table layout have no group. -/
theorem ofBase?_of_isTableLayout
    {base : Text}
    (h : isTableLayout base = true) :
    ofBase? base = none := by
  have hdiverges :
      ∀ lead ∈ tableLeads, ∀ test ∈ ConflictGroup.familyTests, ∀ other ∈ test.leads,
        Text.diverges lead other = true := by
    decide
  rcases isBorderTable_or_startsWith_of_isTableLayout h with hborder | ⟨lead, hlead, hstarts⟩
  · exact ofBase?_of_isBorderTable hborder
  · obtain ⟨rest, rfl⟩ := Text.startsWith_iff.1 hstarts
    exact ConflictGroup.ofBase?_append_eq_none (hdiverges lead hlead) rest

/-- A base with a group is a utility, unless it is bare. -/
theorem isUtility_or_mem_bareFamilies_of_ofBase?
    {base : Text} {group : ConflictGroup}
    (h : ofBase? base = some group) :
    isUtility base = true ∨ base ∈ bareFamilies := by
  rcases isListed_or_mem_bareFamilies_of_ofBase? h with hlisted | hbare
  · left
    have htable : isTableLayout base = false := by
      rw [Bool.eq_false_iff]
      intro htable
      rw [ofBase?_of_isTableLayout htable] at h
      cases h
    rw [isListed] at hlisted
    rw [isUtility, unsigned_of_head?_ne (head?_ne_of_ofBase? h), htable, hlisted]
    exact Bool.or_true _
  · exact Or.inr hbare

/-- The bases with a group that the catalog refuses. -/
theorem ofBase?_isSome_and_refused_iff
    (base : Text) :
    (ofBase? base).isSome = true ∧ isUtility base = false ↔ base ∈ bareFamilies := by
  constructor
  · rintro ⟨hgroup, hrefused⟩
    obtain ⟨group, hgroup⟩ := Option.isSome_iff_exists.1 hgroup
    rcases isUtility_or_mem_bareFamilies_of_ofBase? hgroup with haccepted | hbare
    · rw [haccepted] at hrefused
      cases hrefused
    · exact hbare
  · have hbare :
        ∀ base ∈ bareFamilies, (ofBase? base).isSome = true ∧ isUtility base = false := by
      decide +kernel
    exact hbare base

/--
**Catalog and groups.**  The bases with a group that the catalog refuses are the six families
with nothing after their hyphen.  Every other base that it refuses, and every base of the table
layout, has no group: no report names it, and a class with this base changes no report and no
comparison with an earlier call.
-/
theorem catalog_agrees_with_groups
    (base : Text) :
    ((ofBase? base).isSome = true ∧ isUtility base = false ↔ base ∈ bareFamilies) ∧
    (isTableLayout base = true ∨ isUtility base = false ∧ base ∉ bareFamilies →
      ofBase? base = none ∧ ¬ IsReported base ∧
      ∀ cls, (ScopedClass.ofText cls).base = base → LeavesReports cls ∧ LeavesOverrides cls) := by
  refine ⟨ofBase?_isSome_and_refused_iff base, ?_⟩
  intro hrefused
  have hgroup : ofBase? base = none := by
    rcases hrefused with htable | ⟨hrefused, hbare⟩
    · exact ofBase?_of_isTableLayout htable
    · rw [← Option.not_isSome_iff_eq_none]
      intro hsome
      exact hbare ((ofBase?_isSome_and_refused_iff base).1 ⟨hsome, hrefused⟩)
  refine ⟨hgroup, ?_, ?_⟩
  · intro hreported
    obtain ⟨group, hsome⟩ := exists_ofBase?_of_isReported hreported
    rw [hgroup] at hsome
    cases hsome
  · intro cls hbase
    exact ⟨leavesReports_of_ofBase? hbase hgroup, leavesOverrides_of_ofBase? hbase hgroup⟩

/-- A table layout utility that is refused, one with brackets, and a class that does not exist. -/
theorem catalog_agrees_with_groups_spacing :
    isUtility "border-spacing-4".toList = false ∧
    ¬ IsReported "border-spacing-4".toList ∧
    isUtility "border-spacing-[2px]".toList = true ∧
    LeavesReports "hover:border-spacing-[2px]".toList ∧
    LeavesOverrides "md:boarder-4".toList := by
  have hspacing : isUtility "border-spacing-4".toList = false := by decide +kernel
  have hbrackets : isUtility "border-spacing-[2px]".toList = true := by decide
  have hmisspelled : isUtility "boarder-4".toList = false := by decide +kernel
  refine ⟨hspacing, ?_, hbrackets, ?_, ?_⟩
  · exact ((catalog_agrees_with_groups "border-spacing-4".toList).2
      (Or.inr ⟨hspacing, by decide⟩)).2.1
  · exact (((catalog_agrees_with_groups "border-spacing-[2px]".toList).2
      (Or.inl (by decide))).2.2 "hover:border-spacing-[2px]".toList (by decide)).1
  · exact (((catalog_agrees_with_groups "boarder-4".toList).2
      (Or.inr ⟨hmisspelled, by decide⟩)).2.2 "md:boarder-4".toList (by decide)).2

end Catalog

end ClassLint
