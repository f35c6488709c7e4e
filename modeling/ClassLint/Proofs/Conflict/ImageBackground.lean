import ClassLint.Proofs.Conflict.FamilyTests
import ClassLint.Proofs.Conflict.Influence
import ClassLint.Theme.Reference

/-!
# Images among the backgrounds

A bracketed background may hold an image in place of a color.  Two rules say when it does: for
references to colors a value is an image if it begins as one or holds a gradient, in upper or
lower case; for conflict groups only the beginning counts, and only in lower case.  So a
gradient, or an image written with capitals, has the group of the background colors.

**Results.**
* `ofBase?_bracketedBackground`: the group of a bracketed background.
* `imageBackground_groups`: where the two rules part, and what this does to a list of classes.
* `imageBackground_gradient_conflicts`: a gradient in conflict with a background color.
-/

namespace ClassLint

namespace Text

/-- The background utility with the value in square brackets. -/
def bracketedBackground (inner : Text) : Text :=
  "bg-[".toList ++ (inner ++ [']'])

/-- How an image begins. -/
def imageLeads : List Text :=
  ofStrings ["url(", "image:"]

/-- Whether the value begins as an image, in lower case. -/
def hasImageLead (inner : Text) : Bool :=
  imageLeads.any inner.startsWith

theorem hasImageLead_iff
    {inner : Text} :
    inner.hasImageLead = true ↔ ∃ lead ∈ imageLeads, inner.startsWith lead = true :=
  List.any_eq_true

theorem looksLikeImage_eq
    (inner : Text) :
    inner.looksLikeImage =
      (inner.lower.hasImageLead || inner.lower.hasInside "gradient(".toList) := by
  simp [looksLikeImage, hasImageLead, imageLeads, ofStrings]

/-- Lowering the case keeps a beginning that is in lower case already. -/
theorem hasImageLead_lower
    {inner : Text}
    (h : inner.hasImageLead = true) :
    inner.lower.hasImageLead = true := by
  have hlower : ∀ lead ∈ imageLeads, lead.lower = lead := by decide
  obtain ⟨lead, hlead, hstart⟩ := hasImageLead_iff.1 h
  obtain ⟨rest, rfl⟩ := startsWith_iff.1 hstart
  refine hasImageLead_iff.2 ⟨lead, hlead, startsWith_iff.2 ⟨rest.lower, ?_⟩⟩
  rw [lower, List.map_append]
  exact congrArg (· ++ rest.lower) (hlower lead hlead)

theorem startsWith_cons_self
    (c : Char) (s lead : Text) :
    startsWith (c :: s) (c :: lead) = startsWith s lead := by
  simp [startsWith, dropLead?]

end Text

/-! ## Groups of bracketed backgrounds -/

namespace ConflictGroup

/-- In the table, only the beginnings of images are written with a bracket. -/
theorem lead_of_startsWith_bracket
    {lead rest : Text}
    (hlead : lead ∈ backgroundNonColors)
    (h : Text.startsWith ('[' :: rest) lead = true) :
    ∃ image ∈ Text.imageLeads, lead = '[' :: image := by
  have htable :
      ∀ lead ∈ backgroundNonColors,
        (∃ image ∈ Text.imageLeads, lead = '[' :: image) ∨
          lead ≠ [] ∧ lead.head? ≠ some '[' := by
    decide
  rcases htable lead hlead with himage | ⟨hne, hhead⟩
  · exact himage
  · cases lead with
    | nil => exact absurd rfl hne
    | cons c bs =>
        have hc : c ≠ '[' := by
          rintro rfl
          exact hhead rfl
        rw [Text.startsWith_cons_of_ne hc] at h
        cases h

theorem any_startsWith_bracketed
    (inner : Text) :
    backgroundNonColors.any (Text.startsWith ('[' :: (inner ++ [']']))) =
      inner.hasImageLead := by
  have hbracket : ∀ image ∈ Text.imageLeads, '[' :: image ∈ backgroundNonColors := by decide
  have hclosing : ∀ image ∈ Text.imageLeads, ']' ∉ image := by decide
  have hstart :
      ∀ image ∈ Text.imageLeads,
        Text.startsWith ('[' :: (inner ++ [']'])) ('[' :: image) = inner.startsWith image := by
    intro image himage
    rw [Text.startsWith_cons_self, Text.startsWith_append_singleton (hclosing image himage)]
  rw [Bool.eq_iff_iff, List.any_eq_true, Text.hasImageLead_iff]
  constructor
  · rintro ⟨lead, hlead, h⟩
    obtain ⟨image, himage, rfl⟩ := lead_of_startsWith_bracket hlead h
    exact ⟨image, himage, (hstart image himage).symm.trans h⟩
  · rintro ⟨image, himage, h⟩
    exact ⟨'[' :: image, hbracket image himage, (hstart image himage).trans h⟩

theorem ofBase?_bracketedBackground
    (inner : Text) :
    ofBase? inner.bracketedBackground =
      if inner.hasImageLead then none else some .backgroundColor := by
  have hgroup :
      ofBase? inner.bracketedBackground = ofBackground? ('[' :: (inner ++ [']'])) :=
    ofBase?_background_append ('[' :: (inner ++ [']']))
  simp only [hgroup, ofBackground?, any_startsWith_bracketed, List.isEmpty_cons, Bool.false_or]

/-- The images with a group: the gradients and the images in capitals. -/
theorem ofBase?_image_ne_none_iff
    (inner : Text) :
    (inner.looksLikeImage = true ∧ ofBase? inner.bracketedBackground ≠ none) ↔
      inner.hasImageLead = false ∧
        (inner.lower.hasImageLead = true ∨
          inner.lower.hasInside "gradient(".toList = true) := by
  rw [ofBase?_bracketedBackground, Text.looksLikeImage_eq, Bool.or_eq_true, and_comm]
  cases inner.hasImageLead <;> simp

end ConflictGroup

/-! ## Images among backgrounds -/

/--
**Images and background colors.**  A bracketed background has no group exactly when it begins
as an image in lower case, and it is then an image; the images with a group are the gradients
and those in capitals.  In any scope, an image without a group changes no report, and one with
a group conflicts with the background color that is set first.
-/
theorem imageBackground_groups
    (inner : Text) :
    ConflictGroup.ofBase? inner.bracketedBackground =
        (if inner.hasImageLead then none else some .backgroundColor) ∧
    (inner.hasImageLead = true → inner.looksLikeImage = true) ∧
    ((inner.looksLikeImage = true ∧
        ConflictGroup.ofBase? inner.bracketedBackground ≠ none) ↔
      inner.hasImageLead = false ∧
        (inner.lower.hasImageLead = true ∨
          inner.lower.hasInside "gradient(".toList = true)) ∧
    ∀ cls, (ScopedClass.ofText cls).base = inner.bracketedBackground →
      (inner.hasImageLead = true → LeavesReports cls) ∧
      (inner.hasImageLead = false →
        ConflictsWithFirst cls inner.bracketedBackground
          ⟨(ScopedClass.ofText cls).scope, .backgroundColor⟩) := by
  have hgroup := ConflictGroup.ofBase?_bracketedBackground inner
  refine ⟨hgroup, ?_, ConflictGroup.ofBase?_image_ne_none_iff inner, ?_⟩
  · intro h
    rw [Text.looksLikeImage_eq, Text.hasImageLead_lower h]
    rfl
  · intro cls hbase
    constructor
    · intro himage
      rw [himage, if_pos rfl] at hgroup
      exact leavesReports_of_ofBase? hbase hgroup
    · intro himage
      rw [himage] at hgroup
      exact conflictsWithFirst_of_ofBase? hbase hgroup

/-- An image between two colors of one scope, and a gradient after a color. -/
theorem imageBackground_groups_urlAndGradient :
    detectConflicts (Text.ofStrings ["bg-red-500"] ++ "bg-[url(a.png)]".toList ::
        Text.ofStrings ["bg-blue-500"]) =
      detectConflicts (Text.ofStrings ["bg-red-500"] ++ Text.ofStrings ["bg-blue-500"]) ∧
    ⟨"bg-red-500".toList, "bg-[linear-gradient(red,blue)]".toList, "md".toList⟩ ∈
      detectConflicts (Text.ofStrings ["md:bg-red-500"] ++
        "md:bg-[linear-gradient(red,blue)]".toList :: []) := by
  have hurl : LeavesReports "bg-[url(a.png)]".toList :=
    ((imageBackground_groups "url(a.png)".toList).2.2.2 _ (by decide)).1 (by decide)
  have hgradient :
      ConflictsWithFirst "md:bg-[linear-gradient(red,blue)]".toList
        "bg-[linear-gradient(red,blue)]".toList ⟨"md".toList, .backgroundColor⟩ :=
    ((imageBackground_groups "linear-gradient(red,blue)".toList).2.2.2
      "md:bg-[linear-gradient(red,blue)]".toList (by decide)).2 (by decide)
  constructor
  · exact (hurl _ _).1
  · exact hgradient _ [] "bg-red-500".toList (by decide) (by decide)

/-- A gradient is an image, has the group of the background colors and conflicts with one. -/
theorem imageBackground_gradient_conflicts :
    Text.looksLikeImage "linear-gradient(red,blue)".toList = true ∧
    ConflictGroup.ofBase? (Text.bracketedBackground "linear-gradient(red,blue)".toList) =
      some .backgroundColor ∧
    detectConflicts (Text.ofStrings ["bg-red-500", "bg-[linear-gradient(red,blue)]"]) =
      [⟨"bg-red-500".toList, "bg-[linear-gradient(red,blue)]".toList, []⟩] := by
  refine ⟨by decide, by decide, by decide⟩

end ClassLint
