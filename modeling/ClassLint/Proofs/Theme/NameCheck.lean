import ClassLint.Proofs.Text.LowerCase
import ClassLint.Theme.TokenName

/-!
# What the check of token names looks at

The check compares the stem of a name with the stems of the beginnings that would fit.  Those stems
have no blank and no comma and begin with no hyphen.  So neither a comma nor what follows it has a
part in the comparison, and it does not matter that the stem is cut at a comma inside of `var(…)`
and nowhere else.

**Results.**
* `tokenStem_eq_of_lower_eq`, `tokenStem_around`: names that differ in case or in the blanks around
  them have one stem.
* `startsWith_tokenStem_call`: a name has the same fitting beginnings inside of `var(…)`.
* `nameIssue?_eq_none_iff`: for a name with its hyphens, the check is one of its beginning.
* `nameIssue_invariant`: all of this for the check of any kind.
-/

namespace ClassLint

namespace Text

/-! ## Beginnings of trimmed and cut texts -/

/-- A beginning without blanks is not touched by trimming the end. -/
theorem startsWith_trim
    {lead : Text}
    (hblank : lead.hasBlank = false)
    (s : Text) :
    s.trim.startsWith lead = s.trimLead.startsWith lead := by
  rw [Bool.eq_iff_iff, startsWith_iff, startsWith_iff, trim]
  constructor
  · rintro ⟨rest, hrest⟩
    obtain ⟨tail, -, hsplit⟩ := exists_eq_trimTail_append s.trimLead
    refine ⟨rest ++ tail, ?_⟩
    rw [hsplit, hrest, List.append_assoc]
  · rintro ⟨rest, hrest⟩
    exact ⟨rest.trimTail, by rw [hrest, trimTail_append_of_hasBlank hblank]⟩

theorem trimLead_upTo
    {mark : Char}
    (hmark : isBlank mark = false)
    (s : Text) :
    (s.upTo mark).trimLead = s.trimLead.upTo mark := by
  induction s with
  | nil => rfl
  | cons c s ih =>
      unfold upTo trimLead at ih ⊢
      cases hc : isBlank c with
      | true =>
          have hne : c ≠ mark := by
            rintro rfl
            rw [hmark] at hc
            cases hc
          simpa [hne, hc] using ih
      | false =>
          by_cases hne : c = mark
          · simp [hne, hmark]
          · simp [hne, hc]

/-- A beginning without the character is the same for the text and for what it is cut to. -/
theorem startsWith_trim_upTo
    {mark : Char} {lead : Text}
    (hmark : isBlank mark = false)
    (hlead : mark ∉ lead)
    (hblank : lead.hasBlank = false)
    (s : Text) :
    (s.upTo mark).trim.startsWith lead = s.trim.startsWith lead := by
  rw [startsWith_trim hblank, startsWith_trim hblank, trimLead_upTo hmark, startsWith_upTo hlead]

/-- Two hyphens are left out in front of what begins with none. -/
theorem startsWith_withoutLead_dashes
    {c : Char}
    (hc : c ≠ '-')
    (lead s : Text) :
    startsWith (s.withoutLead "--".toList) (c :: lead) =
      (s.startsWith (c :: lead) || s.startsWith ("--".toList ++ c :: lead)) := by
  rcases withoutLead_cases s "--".toList with hdashes | ⟨hnone, hself⟩
  · generalize s.withoutLead "--".toList = rest at hdashes
    subst hdashes
    have hother : startsWith ("--".toList ++ rest) (c :: lead) = false :=
      startsWith_cons_of_ne hc lead ('-' :: rest)
    rw [hother, Bool.false_or]
    rfl
  · have hother : s.startsWith ("--".toList ++ c :: lead) = false := by
      rw [← Bool.not_eq_true]
      intro hstarts
      obtain ⟨rest, hrest⟩ := startsWith_iff.1 hstarts
      rw [hrest, List.append_assoc, dropLead?_eq_some_iff.2 rfl] at hnone
      cases hnone
    rw [hself, hother, Bool.or_false]

/-! ## Stems -/

theorem tokenStem_eq_of_lower_eq
    {s t : Text}
    (h : s.lower = t.lower) :
    s.tokenStem = t.tokenStem := by
  have htrim : s.trim.lower = t.trim.lower := by
    rw [lower_trim, h, ← lower_trim]
  simp only [tokenStem, htrim]

theorem tokenStem_around
    {before after : Text}
    (hbefore : IsBlankText before)
    (hafter : IsBlankText after)
    (s : Text) :
    tokenStem (before ++ (s ++ after)) = s.tokenStem := by
  simp only [tokenStem, trim_around hbefore hafter]

theorem tokenStem_of_no_call
    {s : Text}
    (h : s.trim.lower.startsWith "var(".toList = false) :
    s.tokenStem = s.lower.trim.withoutLead "--".toList := by
  have hopening : s.trim.lower.dropLead? "var(".toList = none :=
    Option.isNone_iff_eq_none.1 (Option.isSome_eq_false_iff.1 h)
  simp only [tokenStem, between?, hopening, Option.bind_none]
  rw [lower_trim]

theorem tokenStem_call
    (inner : Text) :
    tokenStem ("var(".toList ++ (inner ++ ")".toList)) =
      (inner.lower.upTo ',').trim.withoutLead "--".toList := by
  have htrim :
      trim ("var(".toList ++ (inner ++ ")".toList)) = "var(".toList ++ (inner ++ ")".toList) :=
    trim_enclosed (by decide) (by decide) (by decide) inner
  have hinside :
      between? (lower ("var(".toList ++ (inner ++ ")".toList))) "var(".toList [')'] =
        some inner.lower := by
    rw [between?_eq_some_iff, lower_append, lower_append]
    rfl
  simp only [tokenStem, htrim, hinside]

/-- A fallback has no part in the stem. -/
theorem tokenStem_call_fallback
    (s fallback : Text) :
    tokenStem ("var(".toList ++ (s ++ ',' :: (fallback ++ ")".toList))) =
      tokenStem ("var(".toList ++ (s ++ ")".toList)) := by
  have hinner :
      s ++ ',' :: (fallback ++ ")".toList) = (s ++ ',' :: fallback) ++ ")".toList := by
    simp
  have hlower : lower (s ++ ',' :: fallback) = s.lower ++ ',' :: fallback.lower :=
    lower_append s (',' :: fallback)
  rw [hinner, tokenStem_call, tokenStem_call, hlower, upTo_append_cons]

/-- A beginning of stems: it begins with no hyphen and has neither blanks nor commas. -/
structure IsStemLead (lead : Text) : Prop where
  ne_nil : lead ≠ []
  hyphen : lead.head? ≠ some '-'
  blank : lead.hasBlank = false
  comma : ',' ∉ lead

/-- Cut at a comma or not, what is left after trimming goes on to the same stems. -/
theorem startsWith_tokenStem_call
    {lead s : Text}
    (hlead : lead.IsStemLead)
    (h : s.trim.lower.startsWith "var(".toList = false) :
    startsWith (tokenStem ("var(".toList ++ (s ++ ")".toList))) lead =
      s.tokenStem.startsWith lead := by
  obtain ⟨c, rest, rfl⟩ := List.exists_cons_of_ne_nil hlead.ne_nil
  have hc : c ≠ '-' := fun e => hlead.hyphen (congrArg some e)
  have hdashes : hasBlank ("--".toList ++ c :: rest) = false := by
    rw [hasBlank_append, hlead.blank]
    rfl
  have hcomma : ',' ∉ "--".toList ++ c :: rest := by
    rw [List.mem_append, not_or]
    exact ⟨by decide, hlead.comma⟩
  rw [tokenStem_call, tokenStem_of_no_call h, startsWith_withoutLead_dashes hc,
    startsWith_withoutLead_dashes hc, startsWith_trim_upTo (by decide) hlead.comma hlead.blank,
    startsWith_trim_upTo (by decide) hcomma hdashes]

theorem tokenStem_dashes
    {stem : Text}
    (htrim : trim ("--".toList ++ stem) = "--".toList ++ stem) :
    tokenStem ("--".toList ++ stem) = stem.lower := by
  have hlower : lower ("--".toList ++ stem) = "--".toList ++ stem.lower := rfl
  have hcall : between? ("--".toList ++ stem.lower) "var(".toList [')'] = none := rfl
  simp only [tokenStem, htrim, hlower, hcall]
  exact withoutLead_append _ _

end Text

namespace TokenKind

open Text

/-! ## Beginnings that fit a kind -/

theorem nameLead_eq_dashes_append
    {kind : TokenKind} {lead : Text}
    (h : lead ∈ kind.nameLeads) :
    lead = "--".toList ++ lead.tokenStem := by
  have hleads : ∀ lead ∈ kind.nameLeads, lead = "--".toList ++ lead.tokenStem := by
    cases kind <;> decide
  exact hleads lead h

theorem isStemLead_of_mem_nameLeads
    {kind : TokenKind} {lead : Text}
    (h : lead ∈ kind.nameLeads) :
    lead.tokenStem.IsStemLead := by
  have hleads :
      ∀ lead ∈ kind.nameLeads,
        lead.tokenStem ≠ [] ∧ lead.tokenStem.head? ≠ some '-' ∧
          lead.tokenStem.hasBlank = false ∧ ',' ∉ lead.tokenStem := by
    cases kind <;> decide
  obtain ⟨hne, hhyphen, hblank, hcomma⟩ := hleads lead h
  exact ⟨hne, hhyphen, hblank, hcomma⟩

/-- There is no issue with a name whose stem begins with that of a fitting beginning. -/
theorem nameIssue?_eq_none_iff_tokenStem
    (kind : TokenKind) (token : Text) :
    kind.nameIssue? token = none ↔
      ∃ lead ∈ kind.nameLeads, token.tokenStem.startsWith lead.tokenStem = true := by
  simp only [nameIssue?, ite_eq_left_iff, reduceCtorEq, imp_false, Classical.not_not,
    Bool.and_eq_true, List.any_eq_true]
  constructor
  · rintro ⟨-, hfits⟩
    exact hfits
  · rintro ⟨lead, hlead, hstarts⟩
    refine ⟨?_, lead, hlead, hstarts⟩
    obtain ⟨rest, hrest⟩ := startsWith_iff.1 hstarts
    have hne := (isStemLead_of_mem_nameLeads hlead).ne_nil
    rw [hrest]
    simpa using fun h => absurd h hne

/-- The check finds an issue with both names or with none if they have the same beginnings. -/
theorem isSome_nameIssue?_congr
    {kind : TokenKind} {token other : Text}
    (h : ∀ lead ∈ kind.nameLeads,
      other.tokenStem.startsWith lead.tokenStem = token.tokenStem.startsWith lead.tokenStem) :
    (kind.nameIssue? other).isSome = (kind.nameIssue? token).isSome := by
  have hiff : kind.nameIssue? other = none ↔ kind.nameIssue? token = none := by
    rw [nameIssue?_eq_none_iff_tokenStem, nameIssue?_eq_none_iff_tokenStem]
    constructor
    · rintro ⟨lead, hlead, hstarts⟩
      exact ⟨lead, hlead, (h lead hlead).symm.trans hstarts⟩
    · rintro ⟨lead, hlead, hstarts⟩
      exact ⟨lead, hlead, (h lead hlead).trans hstarts⟩
  rw [Bool.eq_iff_iff, Option.isSome_iff_ne_none, Option.isSome_iff_ne_none]
  exact not_congr hiff

theorem nameIssue?_eq_none_iff
    (kind : TokenKind) {name : Text}
    (hdashes : name.startsWith "--".toList = true)
    (htrim : name.trim = name) :
    kind.nameIssue? name = none ↔ ∃ lead ∈ kind.nameLeads, name.lower.startsWith lead = true := by
  obtain ⟨stem, rfl⟩ := startsWith_iff.1 hdashes
  have hleads :
      ∀ lead ∈ kind.nameLeads,
        startsWith (lower ("--".toList ++ stem)) lead = startsWith stem.lower lead.tokenStem := by
    intro lead hlead
    calc
      startsWith (lower ("--".toList ++ stem)) lead =
          startsWith ("--".toList ++ stem.lower) ("--".toList ++ lead.tokenStem) := by
        rw [← nameLead_eq_dashes_append hlead]
        rfl
      _ = startsWith stem.lower lead.tokenStem := rfl
  rw [nameIssue?_eq_none_iff_tokenStem, tokenStem_dashes htrim]
  constructor
  · rintro ⟨lead, hlead, hstarts⟩
    exact ⟨lead, hlead, (hleads lead hlead).trans hstarts⟩
  · rintro ⟨lead, hlead, hstarts⟩
    exact ⟨lead, hlead, (hleads lead hlead).symm.trans hstarts⟩

/--
**The check ignores case, blanks and calls.**  For every kind, it finds an issue with a name exactly
if it finds one with the name in letters of another case, or with blanks around it.  Where the name
does not begin as a call does, it finds one exactly if it does with the name in `var(…)`, with or
without a fallback.  A name with its two hyphens and without blanks around it passes exactly if it
begins, in lower case, with one of the beginnings that fit the kind.
-/
theorem nameIssue_invariant
    (kind : TokenKind) (token : Text) :
    (∀ other : Text, other.lower = token.lower →
      (kind.nameIssue? other).isSome = (kind.nameIssue? token).isSome) ∧
    (∀ before after : Text, IsBlankText before → IsBlankText after →
      (kind.nameIssue? (before ++ (token ++ after))).isSome = (kind.nameIssue? token).isSome) ∧
    (token.trim.lower.startsWith "var(".toList = false →
      (kind.nameIssue? ("var(".toList ++ (token ++ ")".toList))).isSome =
          (kind.nameIssue? token).isSome ∧
        ∀ fallback : Text,
          (kind.nameIssue? ("var(".toList ++ (token ++ ',' :: (fallback ++ ")".toList)))).isSome =
            (kind.nameIssue? token).isSome) ∧
    (token.startsWith "--".toList = true → token.trim = token →
      (kind.nameIssue? token = none ↔
        ∃ lead ∈ kind.nameLeads, token.lower.startsWith lead = true)) := by
  refine ⟨?_, ?_, ?_, fun hdashes htrim => kind.nameIssue?_eq_none_iff hdashes htrim⟩
  · intro other hlower
    apply isSome_nameIssue?_congr
    intro lead _
    rw [tokenStem_eq_of_lower_eq hlower]
  · intro before after hbefore hafter
    apply isSome_nameIssue?_congr
    intro lead _
    rw [tokenStem_around hbefore hafter]
  · intro hcall
    have hwrapped :
        ∀ lead ∈ kind.nameLeads,
          startsWith (tokenStem ("var(".toList ++ (token ++ ")".toList))) lead.tokenStem =
            token.tokenStem.startsWith lead.tokenStem :=
      fun lead hlead => startsWith_tokenStem_call (isStemLead_of_mem_nameLeads hlead) hcall
    refine ⟨isSome_nameIssue?_congr hwrapped, ?_⟩
    intro fallback
    apply isSome_nameIssue?_congr
    rw [tokenStem_call_fallback]
    exact hwrapped

/-- A name in mixed case with a comma of its own, in other case, between blanks and in a call. -/
theorem nameIssue_invariant_comma :
    let token := "--Font-Weight-a,b".toList
    (fontWeight.nameIssue? "--FONT-weight-A,b".toList).isSome =
        (fontWeight.nameIssue? token).isSome ∧
      (fontWeight.nameIssue? (['\u3000'] ++ (token ++ ['\n']))).isSome =
        (fontWeight.nameIssue? token).isSome ∧
      (fontWeight.nameIssue? "var(--Font-Weight-a,b)".toList).isSome =
        (fontWeight.nameIssue? token).isSome ∧
      (fontWeight.nameIssue? "var(--Font-Weight-a,b, (400) )".toList).isSome =
        (fontWeight.nameIssue? token).isSome ∧
      fontWeight.nameIssue? token = none := by
  intro token
  obtain ⟨hcase, haround, hcall, hplain⟩ := nameIssue_invariant fontWeight token
  have hbefore : IsBlankText ['\u3000'] := by simp [IsBlankText, isBlank]
  have hafter : IsBlankText ['\n'] := by simp [IsBlankText, isBlank]
  obtain ⟨hwrapped, hfallback⟩ := hcall (by decide)
  refine ⟨hcase _ (by decide), haround _ _ hbefore hafter, hwrapped,
    hfallback " (400) ".toList, ?_⟩
  exact (hplain (by decide) (by decide)).2
    ⟨"--font-weight-".toList, by decide, by decide⟩

end TokenKind

end ClassLint
