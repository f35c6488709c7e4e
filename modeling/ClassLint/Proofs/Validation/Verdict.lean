import ClassLint.Proofs.Theme.Exclusion
import ClassLint.Proofs.Validation.Findings

/-!
# The verdict on a base

The findings about a token are its unsupported variants and what is found about its base.  A
base can be unknown, refer to a misnamed color, refer to a misnamed theme token, or declare a
property with an invalid name.  These are checked one after the other, but no two of them hold
of one base, so there is one verdict at most, and it does not depend on the order of the checks.

**Results.**
* `baseFindings_eq_verdict?`: what is found about a base is its verdict.
* `baseFindings_eq_checks`: each check alone gives the same as the checks after each other.
* `one_verdict`: both, with the readings that exclude each other.
-/

namespace ClassLint

/-- The finding about a color whose name is not that of a color. -/
def colorFinding? (token base : Text) : Option Finding :=
  base.misnamedColor?.map (.misnamedColor token)

/-- The finding about a theme token whose name does not fit its kind. -/
def tokenNameFinding? (token base : Text) : Option Finding :=
  (TokenKind.reference? base).bind fun (kind, property) =>
    (kind.nameIssue? property).map fun issue => .misnamedToken token issue.message

/-- The one finding about the base of a token, if there is any. -/
def verdict? (token base : Text) : Option Finding :=
  if Catalog.isMarker base then none
  else if Catalog.isUtility base then
    (referenceFinding? token base).or (declarationFinding? token base)
  else some (.unknownClass token base)

/-! ## Checks that exclude each other -/

/-- The findings of two checks of which at most one finds anything. -/
theorem toList_or_of_eq_none
    {α : Type} {x y : Option α}
    (h : x = none ∨ y = none) :
    (x.or y).toList = x.toList ++ y.toList := by
  rcases h with rfl | rfl
  · rw [Option.none_or, Option.toList_none, List.nil_append]
  · rw [Option.or_none, Option.toList_none, List.append_nil]

theorem colorFinding?_eq_none_or
    (token base : Text) :
    colorFinding? token base = none ∨ tokenNameFinding? token base = none := by
  cases hreference : TokenKind.reference? base with
  | none =>
      right
      rw [tokenNameFinding?, hreference, Option.bind_none]
  | some reference =>
      left
      rw [colorFinding?, TokenKind.misnamedColor?_eq_none_of_reference? hreference,
        Option.map_none]

theorem referenceFindings_eq_none_or
    (token base : Text) :
    (colorFinding? token base = none ∧ tokenNameFinding? token base = none) ∨
      declarationFinding? token base = none := by
  cases hdeclared : declaredProperty? base with
  | none =>
      right
      rw [declarationFinding?, hdeclared, Option.bind_none]
  | some property =>
      left
      obtain ⟨hcolor, hreference⟩ := readings_of_declaredProperty? hdeclared
      rw [colorFinding?, hcolor, tokenNameFinding?, hreference]
      exact ⟨rfl, rfl⟩

theorem referenceFinding?_eq_or
    (token base : Text) :
    referenceFinding? token base =
      (colorFinding? token base).or (tokenNameFinding? token base) := by
  rw [referenceFinding?, colorFinding?]
  cases base.misnamedColor? with
  | none => rfl
  | some property => rfl

theorem baseFindings_eq_verdict?
    (token base : Text) :
    baseFindings token base = (verdict? token base).toList := by
  rw [baseFindings, verdict?]
  split
  · rfl
  · split
    · have hexcluded :
          referenceFinding? token base = none ∨ declarationFinding? token base = none := by
        rw [referenceFinding?_eq_or, Option.or_eq_none_iff]
        exact referenceFindings_eq_none_or token base
      rw [toList_or_of_eq_none hexcluded]
    · rfl

theorem baseFindings_eq_checks
    (token base : Text) :
    baseFindings token base =
      if Catalog.isMarker base then []
      else if Catalog.isUtility base then
        (colorFinding? token base).toList ++ (tokenNameFinding? token base).toList ++
          (declarationFinding? token base).toList
      else [.unknownClass token base] := by
  rw [baseFindings, referenceFinding?_eq_or,
    toList_or_of_eq_none (colorFinding?_eq_none_or token base)]

/-! ## Kinds of verdicts -/

theorem kind_ne_unsupportedVariant_of_verdict?
    {token base : Text} {f : Finding}
    (h : verdict? token base = some f) :
    f.kind ≠ .unsupportedVariant := by
  have hmem : f ∈ baseFindings token base := by
    rw [baseFindings_eq_verdict?, h]
    exact List.mem_singleton_self f
  have hkind := kind_of_mem_baseFindings hmem
  intro heq
  rw [heq] at hkind
  revert hkind
  decide

theorem isUnknown_verdict?_iff
    (token base : Text) :
    (∃ f, verdict? token base = some f ∧ f.kind = .unknownClass) ↔
      Catalog.isMarker base = false ∧ Catalog.isUtility base = false := by
  constructor
  · rintro ⟨f, hverdict, hkind⟩
    rw [verdict?] at hverdict
    split at hverdict
    · cases hverdict
    · next hmarker =>
        split at hverdict
        · -- a check of the base gives another kind
          rcases Option.or_eq_some_iff.1 hverdict with hreference | ⟨-, hdeclaration⟩
          · rcases kind_of_referenceFinding? hreference with hother | hother
            · rw [hother] at hkind
              cases hkind
            · rw [hother] at hkind
              cases hkind
          · rw [kind_of_declarationFinding? hdeclaration] at hkind
            cases hkind
        · next hutility =>
            exact ⟨Bool.eq_false_iff.2 hmarker, Bool.eq_false_iff.2 hutility⟩
  · rintro ⟨hmarker, hutility⟩
    refine ⟨.unknownClass token base, ?_, rfl⟩
    rw [verdict?, hmarker, hutility]
    rfl

/--
**One verdict at most.**  The findings about a token are its unsupported variants, each once
and in written order, and then at most one verdict on its base, which is that the base is
unknown exactly if it is neither a marker nor a utility.  A misnamed color, a theme token and a
declaration are never read from one base, so each check alone gives what the checks after each
other give.
-/
theorem one_verdict :
    (∀ token : Text,
      let parsed := ScopedClass.ofText token
      tokenFindings token =
        (parsed.variants.filter fun variant => !Variant.isSupported variant).map
            (Finding.unsupportedVariant token) ++
          (verdict? token parsed.base).toList ∧
      (∀ f, verdict? token parsed.base = some f → f.kind ≠ .unsupportedVariant) ∧
      ((∃ f, verdict? token parsed.base = some f ∧ f.kind = .unknownClass) ↔
        Catalog.isMarker parsed.base = false ∧ Catalog.isUtility parsed.base = false)) ∧
    (∀ token base : Text,
      baseFindings token base =
        if Catalog.isMarker base then []
        else if Catalog.isUtility base then
          (colorFinding? token base).toList ++ (tokenNameFinding? token base).toList ++
            (declarationFinding? token base).toList
        else [.unknownClass token base]) ∧
    (∀ base : Text,
      (base.misnamedColor? = none ∨ TokenKind.reference? base = none) ∧
      (declaredProperty? base = none ∨
        base.misnamedColor? = none ∧ TokenKind.reference? base = none)) := by
  refine ⟨?_, baseFindings_eq_checks, ?_⟩
  · intro token
    refine ⟨?_, ?_, isUnknown_verdict?_iff token _⟩
    · rw [← baseFindings_eq_verdict?]
      rfl
    · intro f hverdict
      exact kind_ne_unsupportedVariant_of_verdict? hverdict
  · intro base
    constructor
    · cases hreference : TokenKind.reference? base with
      | none => exact Or.inr rfl
      | some token => exact Or.inl (TokenKind.misnamedColor?_eq_none_of_reference? hreference)
    · cases hdeclared : declaredProperty? base with
      | none => exact Or.inl rfl
      | some property => exact Or.inr (readings_of_declaredProperty? hdeclared)

/-- Two of three variants are unsupported, and the border's hint makes its property a width. -/
theorem one_verdict_hintedBorder :
    let token := "foo:hover:bar:border-[length:--hairline]".toList
    let issue : TokenIssue := ⟨"--hairline".toList, .borderWidth⟩
    verdict? token "border-[length:--hairline]".toList =
        some (.misnamedToken token issue.message) ∧
    (Finding.misnamedToken token issue.message).kind ≠ .unsupportedVariant ∧
    tokenFindings token =
      [.unsupportedVariant token "foo".toList, .unsupportedVariant token "bar".toList,
        .misnamedToken token issue.message] := by
  intro token issue
  have hverdict :
      verdict? token "border-[length:--hairline]".toList =
        some (.misnamedToken token issue.message) := by
    decide
  have hvariants :
      ((ScopedClass.ofText token).variants.filter fun variant => !Variant.isSupported variant) =
        Text.ofStrings ["foo", "bar"] := by
    decide
  obtain ⟨hfindings, hkind, -⟩ := one_verdict.1 token
  refine ⟨hverdict, hkind _ hverdict, ?_⟩
  rw [hfindings, hvariants]
  exact congrArg (fun verdict => _ ++ Option.toList verdict) hverdict

end ClassLint
