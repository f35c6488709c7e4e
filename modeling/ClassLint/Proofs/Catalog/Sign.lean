import ClassLint.Proofs.Text.Beginnings
import ClassLint.Utility.Catalog

/-!
# Signs and the table layout

A minus sign in front of a utility is left out before the utility is looked for among those
that exist, but not before it is looked for among those of the table layout.  So a sign hides
that a utility belongs to the table layout.  For most of these utilities nothing follows from
it, because no family of the catalog has them; those that begin as borders do are accepted
with a sign and refused without one.

**Results.**
* `isTableLayout_and_isListed`: the table layout utilities that the catalog has all the same.
* `isUtility_sign`: a sign adds exactly these to the utilities.
* `sign_of_tableLayout`: the same, and for which bases it makes a difference.
* `signedTable_accepted`: a table layout utility that is accepted with a sign.
-/

namespace ClassLint

namespace Catalog

/-- Whether the tables of utilities have the base, which may belong to the table layout. -/
def isListed (base : Text) : Bool :=
  standalone.contains base || families.any base.continues

/-- The table layout utilities without a value that begin as borders do. -/
def borderTableStandalone : List Text :=
  Text.ofStrings ["border-collapse", "border-separate"]

/-- Whether the base is a table layout utility that begins as borders do. -/
def isBorderTable (base : Text) : Bool :=
  borderTableStandalone.contains base || base.startsWith "border-spacing-".toList

/-- How the utilities of the table layout begin that do not begin as borders do. -/
def tableLeads : List Text :=
  Text.ofStrings ["table", "inline-t", "caption-"]

/-! ## The tables against each other -/

/-- No utility that the catalog has begins so. -/
theorem isListed_append_of_mem_tableLeads
    {lead : Text}
    (hlead : lead ∈ tableLeads)
    (rest : Text) :
    isListed (lead ++ rest) = false := by
  have hstandalone :
      ∀ lead ∈ tableLeads, ∀ word ∈ standalone, word.startsWith lead = false := by
    decide +kernel
  have hfamilies :
      ∀ lead ∈ tableLeads, ∀ family ∈ families, Text.diverges lead family = true := by
    decide +kernel
  rw [isListed, Text.contains_append_of_startsWith_eq_false (hstandalone lead hlead),
    Text.any_continues_append_of_diverges (hfamilies lead hlead)]
  rfl

theorem isListed_of_continues
    {base family : Text}
    (hfamily : family ∈ families)
    (h : base.continues family = true) :
    isListed base = true := by
  rw [isListed, Bool.or_eq_true, List.any_eq_true]
  exact Or.inr ⟨family, hfamily, h⟩

theorem continues_border_of_isBorderTable
    {base : Text}
    (h : isBorderTable base = true) :
    base.continues "border-".toList = true := by
  rw [isBorderTable, Bool.or_eq_true] at h
  rcases h with hword | hstarts
  · have hwords : ∀ word ∈ borderTableStandalone, word.continues "border-".toList = true := by
      decide
    exact hwords base (List.contains_iff_mem.1 hword)
  · obtain ⟨rest, rfl⟩ := Text.startsWith_iff.1 hstarts
    exact Text.continues_iff.2 ⟨'s', "pacing-".toList ++ rest, rfl⟩

theorem isTableLayout_of_isBorderTable
    {base : Text}
    (h : isBorderTable base = true) :
    isTableLayout base = true := by
  rw [isBorderTable, Bool.or_eq_true] at h
  rw [isTableLayout, Bool.or_eq_true, List.any_eq_true]
  rcases h with hword | hstarts
  · have hwords : ∀ word ∈ borderTableStandalone, tableStandalone.contains word = true := by
      decide
    exact Or.inl (hwords base (List.contains_iff_mem.1 hword))
  · exact Or.inr ⟨_, List.mem_cons_self, hstarts⟩

/-- A utility of the table layout begins as a border does, or in another way. -/
theorem isBorderTable_or_startsWith_of_isTableLayout
    {base : Text}
    (h : isTableLayout base = true) :
    isBorderTable base = true ∨ ∃ lead ∈ tableLeads, base.startsWith lead = true := by
  rw [isTableLayout, Bool.or_eq_true, List.any_eq_true] at h
  rcases h with hword | ⟨family, hfamily, hstarts⟩
  · have hwords :
        ∀ word ∈ tableStandalone,
          isBorderTable word = true ∨ ∃ lead ∈ tableLeads, word.startsWith lead = true := by
      decide
    exact hwords base (List.contains_iff_mem.1 hword)
  · rcases List.mem_cons.1 hfamily with rfl | hfamily
    · left
      rw [isBorderTable, hstarts, Bool.or_true]
    · right
      obtain rfl := List.mem_singleton.1 hfamily
      obtain ⟨rest, rfl⟩ := Text.startsWith_iff.1 hstarts
      exact ⟨_, List.mem_cons_self, Text.startsWith_iff.2 ⟨'-' :: rest, rfl⟩⟩

/-- Of the table layout the catalog has the utilities that begin as borders do. -/
theorem isTableLayout_and_isListed
    (base : Text) :
    (isTableLayout base && isListed base) = isBorderTable base := by
  rw [Bool.eq_iff_iff, Bool.and_eq_true]
  constructor
  · rintro ⟨htable, hlisted⟩
    rcases isBorderTable_or_startsWith_of_isTableLayout htable with hborder | ⟨lead, hlead, hstarts⟩
    · exact hborder
    · obtain ⟨rest, rfl⟩ := Text.startsWith_iff.1 hstarts
      rw [isListed_append_of_mem_tableLeads hlead] at hlisted
      cases hlisted
  · intro hborder
    have hfamily : "border-".toList ∈ families := by decide +kernel
    exact ⟨isTableLayout_of_isBorderTable hborder,
      isListed_of_continues hfamily (continues_border_of_isBorderTable hborder)⟩

/-! ## Signs -/

/-- No utility of the table layout is written with a sign. -/
theorem isTableLayout_sign
    (base : Text) :
    isTableLayout ('-' :: base) = false := by
  have hstandalone : ∀ word ∈ tableStandalone, word.startsWith ['-'] = false := by decide
  have hfamilies : ∀ family ∈ tableFamilies, Text.diverges ['-'] family = true := by decide
  have hcontains := Text.contains_append_of_startsWith_eq_false hstandalone base
  have hany := Text.any_startsWith_append_of_diverges hfamilies base
  exact Bool.or_eq_false_iff.2 ⟨hcontains, hany⟩

section Unsigned

variable {base : Text} (hne : base ≠ []) (hsign : base.head? ≠ some '-')
include hsign

theorem unsigned_of_head?_ne :
    unsigned base = base := by
  cases base with
  | nil => rfl
  | cons c s =>
      have hc : c ≠ '-' := fun e => hsign (congrArg some e)
      rw [unsigned]
      intro d t heq
      exact absurd (List.cons_eq_cons.1 heq).1 hc

include hne

theorem unsigned_sign :
    unsigned ('-' :: base) = base := by
  cases base with
  | nil => exact absurd rfl hne
  | cons c s =>
      have hc : c ≠ '-' := fun e => hsign (congrArg some e)
      rw [unsigned, if_neg hc]

/-- With a sign the catalog alone decides. -/
theorem isUtility_sign_eq_isListed :
    isUtility ('-' :: base) = (base.hasBalancedBrackets || isListed base) := by
  have hbrackets : Text.hasBalancedBrackets ('-' :: base) = base.hasBalancedBrackets := rfl
  rw [isUtility, hbrackets, isTableLayout_sign, unsigned_sign hne hsign]
  rfl

/-- A sign adds the table layout utilities that begin as borders do. -/
theorem isUtility_sign :
    isUtility ('-' :: base) = (isUtility base || isBorderTable base) := by
  rw [isUtility_sign_eq_isListed hne hsign, isUtility, unsigned_of_head?_ne hsign,
    ← isTableLayout_and_isListed, isListed]
  cases base.hasBalancedBrackets <;> cases isTableLayout base <;> simp

end Unsigned

theorem isUtility_of_hasBalancedBrackets
    {base : Text}
    (h : base.hasBalancedBrackets = true) :
    isUtility base = true := by
  rw [isUtility, h, Bool.true_or]

/-- Without balanced brackets nothing of the table layout is a utility. -/
theorem isUtility_of_isTableLayout
    {base : Text}
    (htable : isTableLayout base = true)
    (hbrackets : base.hasBalancedBrackets = false) :
    isUtility base = false := by
  rw [isUtility, htable, hbrackets]
  rfl

/--
**Signs and the table layout.**  A sign in front of a base adds to the utilities the table
layout utilities that begin as borders do, and no others.  It makes a difference exactly for
those of them that have no balanced brackets: they are refused without a sign and accepted
with one.  All others of the table layout without balanced brackets are refused either way.
-/
theorem sign_of_tableLayout
    {base : Text}
    (hne : base ≠ [])
    (hsign : base.head? ≠ some '-') :
    isUtility ('-' :: base) = (isUtility base || isBorderTable base) ∧
    (isUtility ('-' :: base) = isUtility base ↔
      isBorderTable base = false ∨ base.hasBalancedBrackets = true) ∧
    (isTableLayout base = true → base.hasBalancedBrackets = false →
      isUtility base = false ∧ isUtility ('-' :: base) = isBorderTable base) := by
  have hadded := isUtility_sign hne hsign
  refine ⟨hadded, ?_, ?_⟩
  · rw [hadded]
    cases hborder : isBorderTable base with
    | false => simp
    | true =>
        have htable := isTableLayout_of_isBorderTable hborder
        cases hbrackets : base.hasBalancedBrackets with
        | false => simp [isUtility_of_isTableLayout htable hbrackets]
        | true => simp [isUtility_of_hasBalancedBrackets hbrackets]
  · intro htable hbrackets
    have hrefused := isUtility_of_isTableLayout htable hbrackets
    rw [hadded, hrefused]
    exact ⟨rfl, Bool.false_or _⟩

/-- A bracket that is never closed, behind a table layout family that begins as borders do. -/
theorem sign_of_tableLayout_unclosedBracket :
    "border-spacing-[2px".toList ≠ [] ∧
    "border-spacing-[2px".toList.head? ≠ some '-' ∧
    isUtility "border-spacing-[2px".toList = false ∧
    isUtility "-border-spacing-[2px".toList = true := by
  have hne : "border-spacing-[2px".toList ≠ [] := by decide
  have hsign : "border-spacing-[2px".toList.head? ≠ some '-' := by decide
  obtain ⟨hrefused, haccepted⟩ :=
    (sign_of_tableLayout hne hsign).2.2 (by decide) (by decide)
  exact ⟨hne, hsign, hrefused, haccepted⟩

/-- A table layout utility without brackets that is refused, and accepted with a sign. -/
theorem signedTable_accepted :
    isTableLayout "border-collapse".toList = true ∧
    Text.hasBalancedBrackets "border-collapse".toList = false ∧
    isUtility "border-collapse".toList = false ∧
    isUtility "-border-collapse".toList = true := by
  have htable : isTableLayout "border-collapse".toList = true := by decide
  have hbrackets : Text.hasBalancedBrackets "border-collapse".toList = false := by decide
  have hborder : isBorderTable "border-collapse".toList = true := by decide
  have hsigned : "-border-collapse".toList = '-' :: "border-collapse".toList := by decide
  refine ⟨htable, hbrackets, isUtility_of_isTableLayout htable hbrackets, ?_⟩
  rw [hsigned, isUtility_sign (by decide) (by decide), hborder, Bool.or_true]

end Catalog

end ClassLint
