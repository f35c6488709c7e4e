import ClassLint.Proofs.Color.Group
import ClassLint.Proofs.Color.Spelling
import ClassLint.Proofs.Conflict.Influence

/-!
# Theme colors among the backgrounds

A background has no group if its value begins as an entry of a table does.  Most entries are
words such as `top`, and nothing is asked of what follows the word.  So the name of a theme color
that merely goes on from such a word, as `topaz` does, has no group either, although its utility
paints with what the theme has for the name.

The names that an entry is a part of up to a hyphen, such as `top-left`, are set apart here; of
the others exactly those without a group go on from an entry.

**Results.**
* `hasWholePart_or_runsOn_of_startsWith`: the two ways in which a name begins with an entry.
* `ofBase?_background_of_no_wholePart`: the group of a background without the first way.
* `resolve_of_not_beginsColor`: a name that begins as no color does is the theme's alone.
* `themeBackground_groups`: which theme colors have no group, and what follows for reports.
* `themeBackground_topaz`: a theme color without a group.
-/

namespace ClassLint

namespace Text

/-- A name in which no reference, brackets or opacity can be read. -/
structure IsColorWord (name : Text) : Prop where
  nonempty : name ≠ []
  plain : ∀ c ∈ name, c ∉ "/()[]".toList

/-- Whether the name has the lead in front as a part of its own: it is the lead, or a hyphen
follows, or the lead ends in one. -/
def hasWholePart (name lead : Text) : Bool :=
  ConflictGroup.inFamily name lead || (lead.getLast? == some '-' && name.startsWith lead)

/-- Whether the name begins with the lead and goes on in the middle of a part. -/
def runsOn (name lead : Text) : Bool :=
  lead.getLast? != some '-' &&
    match name.dropLead? lead with
    | some (c :: _) => c != '-'
    | _ => false

section Parts

variable {name lead : Text}

theorem startsWith_of_runsOn
    (h : name.runsOn lead = true) :
    name.startsWith lead = true := by
  rw [runsOn, Bool.and_eq_true] at h
  rw [startsWith]
  cases hdrop : name.dropLead? lead with
  | none =>
      rw [hdrop] at h
      cases h.2
  | some rest => rfl

theorem hasWholePart_or_runsOn_of_startsWith
    (h : name.startsWith lead = true) :
    name.hasWholePart lead = true ∨ name.runsOn lead = true := by
  cases hlast : lead.getLast? == some '-' with
  | true =>
      left
      rw [hasWholePart, hlast, h, Bool.true_and, Bool.or_true]
  | false =>
      obtain ⟨rest, rfl⟩ := startsWith_iff.1 h
      have hdrop : dropLead? (lead ++ rest) lead = some rest := dropLead?_eq_some_iff.2 rfl
      cases rest with
      | nil =>
          left
          rw [hasWholePart, ConflictGroup.inFamily_iff.2 (Or.inl (List.append_nil lead)),
            Bool.true_or]
      | cons c rest =>
          by_cases hc : c = '-'
          · subst hc
            left
            rw [hasWholePart, ConflictGroup.inFamily_iff.2 (Or.inr ⟨rest, rfl⟩), Bool.true_or]
          · right
            have hhyphen : (c != '-') = true := bne_iff_ne.2 hc
            rw [runsOn, hdrop, bne, hlast]
            exact hhyphen

end Parts

namespace IsColorWord

variable {name : Text}

theorem not_mem
    {c : Char}
    (h : name.IsColorWord)
    (hc : c ∈ "/()[]".toList) :
    c ∉ name :=
  fun hmem => h.plain c hmem hc

/-- The name does not begin with a text that holds one of the characters. -/
theorem startsWith_eq_false
    {lead : Text} {c : Char}
    (h : name.IsColorWord)
    (hc : c ∈ "/()[]".toList)
    (hlead : c ∈ lead) :
    name.startsWith lead = false := by
  rw [Bool.eq_false_iff]
  intro hstarts
  obtain ⟨rest, rfl⟩ := startsWith_iff.1 hstarts
  exact h.not_mem hc (List.mem_append_left rest hlead)

theorem between?_brackets
    (h : name.IsColorWord) :
    name.between? ['['] [']'] = none := by
  rw [Option.eq_none_iff_forall_ne_some]
  intro inner hinner
  have hopen : '[' ∉ name := h.not_mem (by decide)
  rw [between?_eq_some_iff.1 hinner] at hopen
  exact hopen List.mem_cons_self

end IsColorWord

end Text

namespace ConflictGroup

open Text (BeginsColor)

/-- Without an entry as a part in front, a background has a group unless it goes on from one. -/
theorem ofBase?_background_of_no_wholePart
    {name : Text}
    (hne : name ≠ [])
    (hwhole : ∀ lead ∈ backgroundNonColors, name.hasWholePart lead = false) :
    ofBase? ("bg-".toList ++ name) =
      if backgroundNonColors.any name.runsOn then none else some .backgroundColor := by
  have hempty : name.isEmpty = false := by simpa using hne
  have hany : backgroundNonColors.any name.startsWith = backgroundNonColors.any name.runsOn := by
    rw [Bool.eq_iff_iff, List.any_eq_true, List.any_eq_true]
    constructor
    · rintro ⟨lead, hlead, hstarts⟩
      rcases Text.hasWholePart_or_runsOn_of_startsWith hstarts with hpart | hruns
      · rw [hwhole lead hlead] at hpart
        cases hpart
      · exact ⟨lead, hlead, hruns⟩
    · rintro ⟨lead, hlead, hruns⟩
      exact ⟨lead, hlead, Text.startsWith_of_runsOn hruns⟩
  rw [ofBase?_background_append, ofBackground?, hempty, hany, Bool.false_or]

theorem not_beginsColor_of_background
    {value : Text}
    (h : ofBase? ("bg-".toList ++ value) = none) :
    ¬ BeginsColor value := by
  intro hbegins
  rw [ofBase?_background_append, ofBackground?_of_beginsColor hbegins] at h
  cases h

end ConflictGroup

namespace ColorScope

open Text

/-- What the definition of a theme color of the name paints with. -/
def themePaint? (scope : ColorScope) (name : Text) : Option Paint :=
  (scope.themeColor? name).bind fun raw => scope.follow (maxDefinitions - 1) (.ofStored raw)

variable {name : Text} (hname : name.IsColorWord) (hbegins : ¬ BeginsColor name)
include hname hbegins

theorem ofValue_of_not_beginsColor :
    ColorReading.ofValue name = .named name := by
  have hempty : name.isEmpty = false := by simpa using hname.nonempty
  have hparen := hname.startsWith_eq_false (by decide) (List.mem_singleton_self '(')
  have hvar : name.startsWith "var(".toList = false :=
    hname.startsWith_eq_false (by decide : '(' ∈ _) (by decide)
  have hdashes : name.startsWith "--".toList = false := by
    rw [Bool.eq_false_iff]
    intro hstarts
    obtain ⟨rest, rfl⟩ := startsWith_iff.1 hstarts
    exact hbegins (.lead (by decide) rest)
  simp only [ColorReading.ofValue, hempty, hparen, hvar, hdashes, hname.between?_brackets,
    Bool.or_self, Bool.false_eq_true, if_false]
  rcases mem_colorLeads_or_ofWord name with hkeyword | hword
  · exact absurd (beginsColor_of_mem hkeyword) hbegins
  · exact hword

/-- A name that begins as no color does is painted with as the theme says, and by nothing else. -/
theorem resolve_of_not_beginsColor
    (scope : ColorScope) (family : Text) :
    scope.resolve family (family ++ name) = .ofPaint none (scope.themePaint? name) := by
  have hshade : Palette.ofToken? name = none := by
    rw [Option.eq_none_iff_forall_ne_some]
    intro c hc
    exact hbegins (beginsColor_of_ofToken? hc)
  -- The theme's definition of the name is the first of those that may be followed.
  have hfollow : scope.follow (7 + 1) (.named name) = scope.themePaint? name := by
    rw [follow, hshade]
    change _ = (scope.themeColor? name).bind fun raw => scope.follow 7 (.ofStored raw)
    cases (scope.themeColor? name).bind fun raw => scope.follow 7 (.ofStored raw) <;> rfl
  rw [scope.resolve_of_not_mem_slash family (hname.not_mem (by decide)), resolveValue,
    ofValue_of_not_beginsColor hname hbegins]
  exact congrArg _ hfollow

end ColorScope

/-- **Theme colors among the backgrounds.**  Let a name have no entry of the table as a part of
its own in front.  Its background has the group of the colors, and conflicts with the background
that is set first, unless the name goes on from an entry in the middle of a part.  Then it has no
group and changes no report, while it paints with whatever a theme has for the name. -/
theorem themeBackground_groups
    {name : Text}
    (hname : name.IsColorWord)
    (hwhole : ∀ lead ∈ ConflictGroup.backgroundNonColors, name.hasWholePart lead = false) :
    (ConflictGroup.backgroundNonColors.any name.runsOn = false →
      ConflictGroup.ofBase? ("bg-".toList ++ name) = some .backgroundColor ∧
      ∀ cls, (ScopedClass.ofText cls).base = "bg-".toList ++ name →
        ConflictsWithFirst cls ("bg-".toList ++ name)
          ⟨(ScopedClass.ofText cls).scope, .backgroundColor⟩) ∧
    (ConflictGroup.backgroundNonColors.any name.runsOn = true →
      ConflictGroup.ofBase? ("bg-".toList ++ name) = none ∧
      (∀ scope : ColorScope,
        scope.resolve "bg-".toList ("bg-".toList ++ name) =
          .ofPaint none (scope.themePaint? name)) ∧
      ∀ cls, (ScopedClass.ofText cls).base = "bg-".toList ++ name → LeavesReports cls) := by
  have hgroup := ConflictGroup.ofBase?_background_of_no_wholePart hname.nonempty hwhole
  constructor
  · intro hruns
    rw [hruns] at hgroup
    refine ⟨hgroup, ?_⟩
    intro cls hbase
    exact conflictsWithFirst_of_ofBase? hbase hgroup
  · intro hruns
    rw [hruns, if_pos rfl] at hgroup
    have hbegins := ConflictGroup.not_beginsColor_of_background hgroup
    refine ⟨hgroup, ?_, ?_⟩
    · intro scope
      exact scope.resolve_of_not_beginsColor hname hbegins "bg-".toList
    · intro cls hbase
      exact leavesReports_of_ofBase? hbase hgroup

/-- A name with an entry behind a hyphen, and one that goes on from an entry and refers to the
first. -/
theorem themeBackground_groups_leftover :
    let scope : ColorScope :=
      .ofTheme [("--color-ice-top", "white"), ("--color-leftover", "var(--color-ice-top)")]
    Text.IsColorWord "ice-top".toList ∧
    Text.IsColorWord "leftover".toList ∧
    ConflictsWithFirst "dark:bg-ice-top".toList "bg-ice-top".toList
      ⟨"dark".toList, .backgroundColor⟩ ∧
    scope.resolve "bg-".toList "bg-leftover".toList = .color .white none ∧
    LeavesReports "dark:bg-leftover".toList := by
  intro scope
  have hice : Text.IsColorWord "ice-top".toList := ⟨by decide, by simp⟩
  have hleftover : Text.IsColorWord "leftover".toList := ⟨by decide, by simp⟩
  obtain ⟨-, hconflicts⟩ := (themeBackground_groups hice (by decide +kernel)).1 (by decide)
  obtain ⟨-, hpaints, hleaves⟩ :=
    (themeBackground_groups hleftover (by decide +kernel)).2 (by decide)
  refine ⟨hice, hleftover, ?_, ?_, ?_⟩
  · exact hconflicts "dark:bg-ice-top".toList (by decide)
  · exact hpaints scope
  · exact hleaves "dark:bg-leftover".toList (by decide)

/-- A theme color that is painted with, and no conflict of it with another color is reported. -/
theorem themeBackground_topaz :
    Text.IsColorWord "topaz".toList ∧
    (∀ lead ∈ ConflictGroup.backgroundNonColors, Text.hasWholePart "topaz".toList lead = false) ∧
    (∃ c, (ColorScope.ofTheme [("--color-topaz", "#ffc87c")]).resolve
      "bg-".toList "bg-topaz".toList = .color c none) ∧
    ConflictGroup.ofBase? "bg-topaz".toList ≠ some .backgroundColor ∧
    detectConflicts (Text.ofStrings ["bg-red-500", "bg-topaz"]) = [] := by
  refine ⟨⟨by decide, by simp⟩, by decide +kernel, ⟨_, rfl⟩, by decide, by decide⟩

end ClassLint
