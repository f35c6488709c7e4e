import ClassLint.Validation

/-!
# Findings by kind

Which part of a validation a finding comes from can be read off its kind: the checks of
single tokens, the conflicts, and the repetitions have no kind in common.

**Results.**
* `kind_of_mem_tokenFindings`: the kinds of findings about one token.
* `filter_conflictingStyles_validate`: the conflicts among the diagnostics of a class
  string are those within it, followed by those with the classes before it.
-/

namespace ClassLint

theorem kind_of_referenceFinding?
    {token base : Text} {f : Finding}
    (h : referenceFinding? token base = some f) :
    f.kind = .invalidColorVariableUsage ∨ f.kind = .invalidThemeTokenName := by
  rw [referenceFinding?] at h
  split at h
  · cases h
    exact Or.inl rfl
  · obtain ⟨reference, -, hissue⟩ := Option.bind_eq_some_iff.1 h
    obtain ⟨issue, -, rfl⟩ := Option.map_eq_some_iff.1 hissue
    exact Or.inr rfl

theorem kind_of_declarationFinding?
    {token base : Text} {f : Finding}
    (h : declarationFinding? token base = some f) :
    f.kind = .invalidCssPropertyName := by
  obtain ⟨property, -, hproperty⟩ := Option.bind_eq_some_iff.1 h
  split at hproperty
  · cases hproperty
  · cases hproperty
    rfl

theorem kind_of_mem_baseFindings
    {token base : Text} {f : Finding}
    (h : f ∈ baseFindings token base) :
    f.kind ∈
      [DiagnosticKind.unknownClass, .invalidColorVariableUsage, .invalidThemeTokenName,
        .invalidCssPropertyName] := by
  rw [baseFindings] at h
  split at h
  · cases h
  · split at h
    · rcases List.mem_append.1 h with hreference | hdeclaration
      · rcases kind_of_referenceFinding? (Option.mem_toList.1 hreference) with hkind | hkind
        · simp [hkind]
        · simp [hkind]
      · simp [kind_of_declarationFinding? (Option.mem_toList.1 hdeclaration)]
    · rw [List.mem_singleton.1 h]
      exact List.mem_cons_self

theorem kind_of_mem_tokenFindings
    {token : Text} {f : Finding}
    (h : f ∈ tokenFindings token) :
    f.kind ∈
      [DiagnosticKind.unsupportedVariant, .unknownClass, .invalidColorVariableUsage,
        .invalidThemeTokenName, .invalidCssPropertyName] := by
  rcases List.mem_append.1 h with hvariant | hbase
  · obtain ⟨variant, -, rfl⟩ := List.mem_map.1 hvariant
    exact List.mem_cons_self
  · exact List.mem_cons_of_mem _ (kind_of_mem_baseFindings hbase)

/-- Only the comparisons with other tokens find conflicts. -/
theorem filter_conflictingStyles_findings
    (previous tokens : List Text) :
    (findings previous tokens).filter (fun f => f.kind = .conflictingStyles) =
      (detectConflicts tokens ++ overridingConflicts previous tokens).map
        StyleConflict.toFinding := by
  have htokens :
      (tokens.flatMap tokenFindings).filter (fun f => f.kind = .conflictingStyles) = [] := by
    rw [List.filter_eq_nil_iff]
    intro f hf
    obtain ⟨token, -, htoken⟩ := List.mem_flatMap.1 hf
    have hkind := kind_of_mem_tokenFindings htoken
    intro heq
    rw [of_decide_eq_true heq] at hkind
    revert hkind
    decide
  have hconflicts : ∀ cs : List StyleConflict,
      (cs.map StyleConflict.toFinding).filter (fun f => f.kind = .conflictingStyles) =
        cs.map StyleConflict.toFinding := by
    intro cs
    rw [List.filter_eq_self]
    intro f hf
    obtain ⟨c, -, rfl⟩ := List.mem_map.1 hf
    rfl
  have hduplicates : ∀ ds : List DuplicateStyle,
      (ds.map DuplicateStyle.toFinding).filter (fun f => f.kind = .conflictingStyles) =
        [] := by
    intro ds
    rw [List.filter_eq_nil_iff]
    intro f hf
    obtain ⟨d, -, rfl⟩ := List.mem_map.1 hf
    simp [DuplicateStyle.toFinding, Finding.kind]
  simp only [findings, List.filter_append, htokens, hconflicts, hduplicates,
    List.nil_append, List.append_nil, List.map_append]

@[simp] theorem Diagnostic.kind_escalateIn
    (kinds : List DiagnosticKind) (d : Diagnostic) :
    (d.escalateIn kinds).kind = d.kind := by
  unfold escalateIn
  split <;> rfl

/-- The diagnostic that reports a conflict. -/
def StyleConflict.toDiagnostic (escalated : List DiagnosticKind) (c : StyleConflict) :
    Diagnostic :=
  (Diagnostic.ofFinding c.toFinding).escalateIn escalated

theorem filter_conflictingStyles_validate
    (ctx : ValidationContext) (classes : Text) :
    (validate ctx classes).filter (fun d => d.kind = .conflictingStyles) =
      (detectConflicts (ctx.registry.expandAliases classes) ++
        overridingConflicts ctx.previous (ctx.registry.expandAliases classes)).map
          (StyleConflict.toDiagnostic ctx.escalated) := by
  have hkind : ∀ f : Finding,
      ((Diagnostic.ofFinding f).escalateIn ctx.escalated).kind = f.kind := by
    intro f
    rw [Diagnostic.kind_escalateIn]
    rfl
  unfold validate
  rw [List.filter_map]
  simp only [Function.comp_def, hkind, filter_conflictingStyles_findings, List.map_map]
  rfl

end ClassLint
