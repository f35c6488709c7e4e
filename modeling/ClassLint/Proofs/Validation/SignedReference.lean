import ClassLint.Proofs.Catalog.Sign
import ClassLint.Proofs.Validation.Verdict

/-!
# Signs and references

The catalog looks behind a minus sign, and every other reader of a base looks at the sign.  No
family of colors or tokens begins with a sign and no declaration does, so nothing is read from a
signed base.  The families of tokens have the same utilities with and without a sign; what a sign
hides is the token that such a utility refers to, and with it the check of the token's name.

**Results.**
* `readings_sign`: nothing is read from a signed base.
* `baseFindings_sign`: a signed base is unknown, or nothing is found about it.
* `isUtility_sign_of_mem_families`: a sign makes no utility of a token family known or unknown.
* `sign_hides_reference`: all of this for a utility of a token family, beside the utility itself.
* `signedMargin_unchecked`: a negative margin whose token has the wrong name.
-/

namespace ClassLint

open TokenKind (families lengthHintedFamilies)

/-! ## Markers -/

/-- The beginnings of the markers. -/
def markerLeads : List Text :=
  Text.ofStrings ["group", "peer", "peer/"]

theorem isMarker_append_eq_false
    {lead : Text}
    (h : ∀ marker ∈ markerLeads, Text.diverges lead marker = true)
    (rest : Text) :
    Catalog.isMarker (lead ++ rest) = false := by
  have hgroup : (lead ++ rest == "group".toList) = false :=
    beq_eq_false_iff_ne.2 (Text.append_ne_of_diverges (h _ (by decide)) rest)
  have hpeer : (lead ++ rest == "peer".toList) = false :=
    beq_eq_false_iff_ne.2 (Text.append_ne_of_diverges (h _ (by decide)) rest)
  have hnamed : Text.continues (lead ++ rest) "peer/".toList = false :=
    Text.continues_append_of_diverges (h _ (by decide)) rest
  rw [Catalog.isMarker, hgroup, hpeer, hnamed]
  rfl

/-! ## Signed bases -/

/-- No color, no theme token and no declaration is read from a signed base. -/
theorem readings_sign
    (base : Text) :
    Text.misnamedColor? ('-' :: base) = none ∧ TokenKind.reference? ('-' :: base) = none ∧
      declaredProperty? ('-' :: base) = none := by
  have hcolors : ∀ family ∈ colorFamilies, Text.diverges ['-'] family = true := by decide
  have hhinted : ∀ entry ∈ lengthHintedFamilies, Text.diverges ['-'] entry.1 = true := by decide
  have hfamilies : ∀ entry ∈ families, Text.diverges ['-'] entry.1 = true := by decide +kernel
  have hcolor : Text.colorValue? ('-' :: base) = none :=
    Text.colorValue?_append_eq_none hcolors base
  have hhintedNone : Text.afterFamily? lengthHintedFamilies ('-' :: base) = none :=
    Text.afterFamily?_append_eq_none hhinted base
  have hfamiliesNone : Text.afterFamily? families ('-' :: base) = none :=
    Text.afterFamily?_append_eq_none hfamilies base
  refine ⟨?_, ?_, rfl⟩
  · rw [Text.misnamedColor?, hcolor, Option.bind_none]
  · rw [TokenKind.reference?, hhintedNone, hfamiliesNone]
    rfl

theorem baseFindings_sign
    (token base : Text) :
    baseFindings token ('-' :: base) =
      if Catalog.isUtility ('-' :: base) then [] else [.unknownClass token ('-' :: base)] := by
  have hmarkers : ∀ marker ∈ markerLeads, Text.diverges ['-'] marker = true := by decide
  have hmarker : Catalog.isMarker ('-' :: base) = false := isMarker_append_eq_false hmarkers base
  obtain ⟨hcolor, hreference, hdeclared⟩ := readings_sign base
  have hnothing : referenceFinding? token ('-' :: base) = none := by
    rw [referenceFinding?_eq_or, colorFinding?, hcolor, tokenNameFinding?, hreference]
    rfl
  rw [baseFindings, hmarker, hnothing, declarationFinding?, hdeclared]
  rfl

/-! ## Families of tokens -/

section Families

variable {lead : Text} {kind : TokenKind} (hfamily : (lead, kind) ∈ families)
include hfamily

theorem isBorderTable_of_mem_families
    (rest : Text) :
    Catalog.isBorderTable (lead ++ rest) = false := by
  have hborder : Text.diverges lead "border-".toList = true :=
    TokenKind.diverges_colorFamilies _ hfamily _ (by decide)
  rw [← Bool.not_eq_true]
  intro h
  have hcontinues := Catalog.continues_border_of_isBorderTable h
  rw [Text.continues_append_of_diverges hborder] at hcontinues
  cases hcontinues

/-- A sign makes no utility of a token family known or unknown. -/
theorem isUtility_sign_of_mem_families
    (rest : Text) :
    Catalog.isUtility ('-' :: (lead ++ rest)) = Catalog.isUtility (lead ++ rest) := by
  have hfirst : ∀ entry ∈ families, entry.1 ≠ [] ∧ Text.diverges entry.1 ['-'] = true := by
    decide +kernel
  obtain ⟨hlead, hsign⟩ := hfirst _ hfamily
  have hne : lead ++ rest ≠ [] := List.append_ne_nil_of_left_ne_nil hlead rest
  have hunsigned : (lead ++ rest).head? ≠ some '-' := by
    intro hhead
    obtain ⟨tail, htail⟩ := List.head?_eq_some_iff.1 hhead
    exact Text.append_ne_append_of_diverges hsign rest tail htail
  rw [Catalog.isUtility_sign hne hunsigned, isBorderTable_of_mem_families hfamily, Bool.or_false]

theorem baseFindings_of_mem_families
    (token rest : Text) :
    baseFindings token (lead ++ rest) =
      if Catalog.isUtility (lead ++ rest) then (tokenNameFinding? token (lead ++ rest)).toList
      else [.unknownClass token (lead ++ rest)] := by
  have hmarkers :
      ∀ entry ∈ families, ∀ marker ∈ markerLeads, Text.diverges entry.1 marker = true := by
    decide +kernel
  have hbrackets : ∀ entry ∈ families, Text.diverges entry.1 ['['] = true := by
    decide +kernel
  have hcolor : colorFinding? token (lead ++ rest) = none := by
    rw [colorFinding?, Text.misnamedColor?,
      Text.colorValue?_append_eq_none (TokenKind.diverges_colorFamilies _ hfamily)]
    rfl
  have hdeclaration : declarationFinding? token (lead ++ rest) = none := by
    have hbracket := Text.dropLead?_append_of_diverges (hbrackets _ hfamily) rest
    rw [declarationFinding?, declaredProperty?, Text.between?, hbracket]
    rfl
  rw [baseFindings_eq_checks, isMarker_append_eq_false (hmarkers _ hfamily), hcolor, hdeclaration]
  simp

end Families

/--
**A sign hides the token.**  A utility of a token family is known with a sign exactly if it is known
without one, but with the sign no token is read from it, so that the two read the same exactly if
the utility refers to no token.  Nothing is found about a known utility with a sign, and without the
sign exactly what is found about the name of its token.
-/
theorem sign_hides_reference
    {lead : Text} {kind : TokenKind}
    (hfamily : (lead, kind) ∈ families)
    (rest : Text) :
    let base := lead ++ rest
    TokenKind.reference? ('-' :: base) = none ∧
    (TokenKind.reference? ('-' :: base) = TokenKind.reference? base ↔
      TokenKind.reference? base = none) ∧
    Catalog.isUtility ('-' :: base) = Catalog.isUtility base ∧
    (∀ token, baseFindings token ('-' :: base) =
      if Catalog.isUtility base then [] else [.unknownClass token ('-' :: base)]) ∧
    ∀ token, baseFindings token base =
      if Catalog.isUtility base then (tokenNameFinding? token base).toList
      else [.unknownClass token base] := by
  intro base
  obtain ⟨-, hreference, -⟩ := readings_sign base
  have hknown : Catalog.isUtility ('-' :: base) = Catalog.isUtility base :=
    isUtility_sign_of_mem_families hfamily rest
  refine ⟨hreference, ?_, hknown, ?_, fun token => baseFindings_of_mem_families hfamily token rest⟩
  · rw [hreference, eq_comm]
  · intro token
    rw [baseFindings_sign, hknown]

/-- A sign in front of a margin whose token has the right name, behind a variant. -/
theorem sign_hides_reference_namedMargin :
    ("mx-".toList, TokenKind.spacing) ∈ families ∧
      TokenKind.reference? "mx-[--spacing-4]".toList = some (.spacing, "--spacing-4".toList) ∧
      TokenKind.reference? "-mx-[--spacing-4]".toList ≠
        TokenKind.reference? "mx-[--spacing-4]".toList ∧
      baseFindings "sm:mx-[--spacing-4]".toList "mx-[--spacing-4]".toList = [] ∧
      baseFindings "sm:-mx-[--spacing-4]".toList "-mx-[--spacing-4]".toList = [] := by
  have hfamily : ("mx-".toList, TokenKind.spacing) ∈ families := by decide +kernel
  have hsplit : "mx-[--spacing-4]".toList = "mx-".toList ++ "[--spacing-4]".toList := by decide
  have hsigned : "-mx-[--spacing-4]".toList = '-' :: "mx-[--spacing-4]".toList := by decide
  have hread :
      TokenKind.reference? "mx-[--spacing-4]".toList = some (.spacing, "--spacing-4".toList) := by
    decide
  have hutility : Catalog.isUtility "mx-[--spacing-4]".toList = true := by decide
  have hname :
      tokenNameFinding? "sm:mx-[--spacing-4]".toList "mx-[--spacing-4]".toList = none := by
    decide
  have hbase := sign_hides_reference hfamily "[--spacing-4]".toList
  rw [← hsplit] at hbase
  obtain ⟨-, hsame, -, hfound, hplain⟩ := hbase
  refine ⟨hfamily, hread, ?_, ?_, ?_⟩
  · rw [hsigned]
    intro heq
    rw [hsame.1 heq] at hread
    cases hread
  · rw [hplain, if_pos hutility, hname]
    rfl
  · rw [hsigned, hfound, if_pos hutility]

/-- A margin whose token has the wrong name: the name is reported, and not with a sign. -/
theorem signedMargin_unchecked :
    let issue : TokenIssue := ⟨"--gap".toList, .spacing⟩
    Text.startsWith "m-(--gap)".toList "m-".toList = true ∧
      Catalog.isUtility "-m-(--gap)".toList = true ∧
      TokenKind.reference? "m-(--gap)".toList = some (.spacing, "--gap".toList) ∧
      TokenKind.reference? "-m-(--gap)".toList = none ∧
      tokenFindings "m-(--gap)".toList =
        [.misnamedToken "m-(--gap)".toList issue.message] ∧
      tokenFindings "-m-(--gap)".toList = [] := by
  decide +kernel

end ClassLint
