import ClassLint.Proofs.Text.Trimming
import ClassLint.Run

/-!
# Color references, as checked and as resolved

The check of names and the resolution of colors read the value of a utility apart from
each other.  Wherever the check finds a reference, the resolution reads a reference to
the same property, so a name that the check rejects never gives a color.

**Results.**
* `ofArbitrary_of_isReferenceLead`: a reference in brackets is read the same with the
  blanks around it trimmed first.
* `ofValue_of_colorReference?`: the reading of a value in which the check finds a
  reference.
* `resolve_of_misnamedColor?`: a base with a rejected name is unresolved in its family.
* `run_resolve_of_unresolved`: a run that meets an unresolved utility says so and fails.
* `misnamedColor_unresolved`: a rejected name is unresolved in every scope and every run.
-/

namespace ClassLint

namespace Text

/-- Whether the inside of brackets begins as a reference to a custom property does. -/
def isReferenceLead (s : Text) : Bool :=
  s.startsWith "var(".toList || s.startsWith "--".toList

/-- Only the trimmed form of a value decides which property it refers to. -/
theorem referencedProperty?_eq_of_trim_eq
    {s t : Text}
    (h : s.trim = t.trim) :
    s.referencedProperty? = t.referencedProperty? := by
  unfold referencedProperty?
  rw [h]

/-- A beginning without blanks that shows a reference, and what follows it. -/
theorem isReferenceLead_cases
    {s : Text}
    (h : s.isReferenceLead = true) :
    ∃ lead rest, s = lead ++ rest ∧ lead ≠ [] ∧ lead.hasBlank = false ∧
      (∀ t, isReferenceLead (lead ++ t) = true) ∧
      (∀ t, (lead ++ t).dropLead? "color:".toList = none) := by
  rcases Bool.or_eq_true_iff.1 h with hvar | hdashes
  · obtain ⟨rest, hrest⟩ := startsWith_iff.1 hvar
    refine ⟨"var(".toList, rest, hrest, by decide, by decide, ?_, ?_⟩
    · intro t
      exact Bool.or_eq_true_iff.2 (Or.inl (startsWith_append _ t))
    · intro t
      rfl
  · obtain ⟨rest, hrest⟩ := startsWith_iff.1 hdashes
    refine ⟨"--".toList, rest, hrest, by decide, by decide, ?_, ?_⟩
    · intro t
      exact Bool.or_eq_true_iff.2 (Or.inr (startsWith_append _ t))
    · intro t
      rfl

/-- Trimming the inside of brackets leaves the reference after its hint as it is. -/
theorem trim_withoutLead_of_isReferenceLead
    {inner : Text}
    (h : (inner.withoutLead "color:".toList).isReferenceLead = true) :
    (inner.trim.withoutLead "color:".toList).isReferenceLead = true ∧
      (inner.trim.withoutLead "color:".toList).referencedProperty? =
        (inner.withoutLead "color:".toList).referencedProperty? := by
  obtain ⟨lead, rest, hsplit, hne, hblank, hlead, hhint⟩ := isReferenceLead_cases h
  have htrim :
      inner.trim.withoutLead "color:".toList = lead ++ trimTail rest := by
    rcases withoutLead_cases inner "color:".toList with hinner | ⟨-, hinner⟩
    · rw [hinner, hsplit, trim_append_of_hasBlank (by decide) (by decide),
        trimTail_append_of_hasBlank hblank, withoutLead_append]
    · rw [hinner] at hsplit
      rw [hsplit, trim_append_of_hasBlank hne hblank]
      unfold withoutLead
      rw [hhint]
      rfl
  rw [htrim, hsplit]
  refine ⟨hlead _, referencedProperty?_eq_of_trim_eq ?_⟩
  rw [trim_append_of_hasBlank hne hblank, trim_append_of_hasBlank hne hblank, trimTail_trimTail]

/-- The first beginning that can be taken away is the first one that the text has. -/
theorem find?_startsWith_of_findSome?
    {base raw : Text} {families : List Text}
    (h : families.findSome? (fun lead => base.dropLead? lead) = some raw) :
    ∃ family, families.find? base.startsWith = some family ∧
      base.dropLead? family = some raw := by
  induction families with
  | nil => cases h
  | cons lead families ih =>
      rw [List.findSome?_cons] at h
      rw [List.find?_cons]
      cases hlead : base.dropLead? lead with
      | none =>
          rw [hlead] at h
          have hstarts : base.startsWith lead = false := by
            simp [startsWith, hlead]
          rw [hstarts]
          exact ih h
      | some rest =>
          rw [hlead] at h
          cases h
          have hstarts : base.startsWith lead = true := by
            simp [startsWith, hlead]
          rw [hstarts]
          exact ⟨lead, rfl, hlead⟩

end Text

namespace ColorReading

theorem ofArbitrary_of_isReferenceLead
    {inner : Text}
    (h : (inner.withoutLead "color:".toList).isReferenceLead = true) :
    ofArbitrary inner =
      ofReference (inner.withoutLead "color:".toList).referencedProperty? := by
  obtain ⟨hlead, hproperty⟩ := Text.trim_withoutLead_of_isReferenceLead h
  unfold ofArbitrary
  rw [Text.isReferenceLead] at hlead
  simp only [hlead, if_true, hproperty]

theorem ofValue_of_colorReference?
    {value property : Text}
    (h : value.colorReference? = some property) :
    ofValue value = ofReference (some property) := by
  have hreference := h
  unfold Text.colorReference? at h
  cases hbrackets : value.between? ['['] [']'] with
  | some inner =>
      simp only [hbrackets] at h
      split at h
      · cases h
      · split at h
        · next hlead =>
            have hvalue := Text.between?_eq_some_iff.1 hbrackets
            subst hvalue
            have harbitrary := ofArbitrary_of_isReferenceLead hlead
            rw [h] at harbitrary
            rw [← harbitrary]
            unfold ofValue
            simp only [hbrackets]
            rfl
        · cases h
  | none =>
      simp only [hbrackets] at h
      split at h
      · next hlead =>
          have hne : value.isEmpty = false := by
            cases value with
            | nil => simp [Text.startsWith, Text.dropLead?] at hlead
            | cons c s => rfl
          unfold ofValue
          rw [hne, hlead, hreference]
          rfl
      · cases h

/-- A name that is rejected for colors has no reading. -/
theorem ofReference_of_nameIssue?
    {property : Text}
    (h : (TokenKind.color.nameIssue? property).isSome = true) :
    ofReference (some property) = .nothing := by
  simp [ofReference, h]

end ColorReading

namespace ColorScope

theorem follow_nothing
    (scope : ColorScope) (n : Nat) :
    scope.follow n .nothing = none := by
  cases n <;> rfl

/-- A value that does not paint stays unresolved under every opacity. -/
theorem resolve_of_resolveValue_eq_none
    (scope : ColorScope) {family token raw : Text}
    (hraw : token.dropLead? family = some raw)
    (hpaint : scope.resolveValue raw.splitOpacity.1 = none) :
    scope.resolve family token = .unresolved := by
  unfold resolve
  rw [hraw]
  cases hsplit : raw.splitOpacity with
  | mk value opacity =>
      rw [hsplit] at hpaint
      cases opacity with
      | none =>
          simp only [hsplit, hpaint]
          rfl
      | some suffix =>
          simp only [hsplit, hpaint]
          cases readOpacity? suffix <;> rfl

theorem resolve_of_ofValue_eq_nothing
    (scope : ColorScope) {family token raw : Text}
    (hraw : token.dropLead? family = some raw)
    (hvalue : ColorReading.ofValue raw.splitOpacity.1 = .nothing) :
    scope.resolve family token = .unresolved := by
  apply resolve_of_resolveValue_eq_none scope hraw
  unfold resolveValue
  rw [hvalue, follow_nothing]

/-- A base with a rejected color name, in the first family that it belongs to. -/
theorem resolve_of_misnamedColor?
    {base property : Text}
    (h : base.misnamedColor? = some property) :
    ∃ family, colorFamilies.find? base.startsWith = some family ∧
      ∀ scope : ColorScope, scope.resolve family base = .unresolved := by
  unfold Text.misnamedColor? at h
  obtain ⟨raw, hraw, hreference⟩ := Option.bind_eq_some_iff.1 h
  obtain ⟨name, hname, hissue⟩ := Option.bind_eq_some_iff.1 hreference
  obtain ⟨issue, hsome, -⟩ := Option.map_eq_some_iff.1 hissue
  obtain ⟨family, hfamily, hdrop⟩ := Text.find?_startsWith_of_findSome? hraw
  have hvalue : ColorReading.ofValue raw.splitOpacity.1 = .nothing := by
    rw [ColorReading.ofValue_of_colorReference? hname]
    apply ColorReading.ofReference_of_nameIssue?
    rw [hsome]
    rfl
  exact ⟨family, hfamily, fun scope => resolve_of_ofValue_eq_nothing scope hdrop hvalue⟩

end ColorScope

/-- The lines of several utilities, as a run prints them. -/
def resolutionText (registry : Registry) (dark : Bool) (utilities : List Text) : Text :=
  utilities.flatMap fun u => resolutionLine u (resolveClass registry dark u)

theorem resolutionLine_unresolved
    (utility : Text) :
    resolutionLine utility .unresolved = utility ++ "\tunresolved\n".toList := by
  unfold resolutionLine
  rw [List.append_assoc]
  rfl

/-- A run that meets an unresolved utility fails, and prints the other lines all the same. -/
theorem run_resolve_of_unresolved
    {s : Surroundings} {options : ResolveOptions} {config : Config}
    {before after : List Text} {utility : Text}
    (hconfig : Config.discover s options.config ['.'] = .ok config)
    (hutilities : options.utilities = before ++ utility :: after)
    (hunresolved : resolveClass config.registry options.dark utility = .unresolved) :
    Command.run s (.resolve options) = .ok
      { outcome := .failure
        text :=
          resolutionText config.registry options.dark before ++
            (utility ++ "\tunresolved\n".toList) ++
            resolutionText config.registry options.dark after } := by
  have hany :
      options.utilities.any
        (fun u => (resolveClass config.registry options.dark u).isUnresolved) = true := by
    rw [List.any_eq_true]
    refine ⟨utility, ?_, ?_⟩
    · rw [hutilities]
      exact List.mem_append_right _ List.mem_cons_self
    · rw [hunresolved]
      rfl
  have htext :
      resolutionText config.registry options.dark options.utilities =
        resolutionText config.registry options.dark before ++
          (utility ++ "\tunresolved\n".toList) ++
          resolutionText config.registry options.dark after := by
    unfold resolutionText
    rw [hutilities, List.flatMap_append, List.flatMap_cons, hunresolved,
      resolutionLine_unresolved, ← List.append_assoc]
  simp only [Command.run, hconfig, resolveOutput, hany, if_true, ← htext]
  rfl

/-- **Rejected names never give a color.**  A base whose color name the check rejects is
unresolved in the first family that it belongs to, for all variables, themes and appearances.
So a run prints every utility with that base as unresolved and fails, whatever its surroundings are
and its configuration defines. -/
theorem misnamedColor_unresolved
    (base : Text)
    (h : base.misnamedColor?.isSome = true) :
    ∃ family, colorFamilies.find? base.startsWith = some family ∧
      (∀ scope : ColorScope, scope.resolve family base = .unresolved) ∧
      ∀ utility, (ScopedClass.ofText utility).base = base →
        ∀ (s : Surroundings) options config before after,
          Config.discover s options.config ['.'] = .ok config →
          options.utilities = before ++ utility :: after →
          Command.run s (.resolve options) = .ok
            { outcome := .failure
              text :=
                resolutionText config.registry options.dark before ++
                  (utility ++ "\tunresolved\n".toList) ++
                  resolutionText config.registry options.dark after } := by
  obtain ⟨property, hproperty⟩ := Option.isSome_iff_exists.1 h
  obtain ⟨family, hfamily, hresolve⟩ := ColorScope.resolve_of_misnamedColor? hproperty
  refine ⟨family, hfamily, hresolve, ?_⟩
  intro utility hbase s options config before after hconfig hutilities
  apply run_resolve_of_unresolved hconfig hutilities
  unfold resolveClass ColorScope.resolveUtility
  simp only [hbase, hfamily]
  exact hresolve _

/-- A name behind a hint, with a fallback and an opacity, in a variant. -/
theorem misnamedColor_unresolved_hinted :
    ∃ family,
      colorFamilies.find? (Text.startsWith "bg-[color:var(--brand, red)]/50".toList) =
        some family ∧
      (∀ scope : ColorScope,
        scope.resolve family "bg-[color:var(--brand, red)]/50".toList = .unresolved) ∧
      Command.run (FileTree.empty [])
          (.resolve ⟨["dark:bg-[color:var(--brand, red)]/50".toList], none, false⟩) =
        .ok ⟨.failure, "dark:bg-[color:var(--brand, red)]/50\tunresolved\n".toList⟩ := by
  obtain ⟨family, hfamily, hscope, hrun⟩ :=
    misnamedColor_unresolved "bg-[color:var(--brand, red)]/50".toList (by decide)
  refine ⟨family, hfamily, hscope, ?_⟩
  exact hrun "dark:bg-[color:var(--brand, red)]/50".toList (by decide) (FileTree.empty [])
    ⟨["dark:bg-[color:var(--brand, red)]/50".toList], none, false⟩ .default [] [] rfl rfl

end ClassLint
