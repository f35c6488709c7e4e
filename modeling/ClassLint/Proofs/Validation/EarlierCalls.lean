import ClassLint.Proofs.Conflict.Continuation
import ClassLint.Proofs.Conflict.Repetition

/-!
# Classes of earlier calls

The aliases of a class string are replaced before it is checked.  The classes that earlier
calls applied to the same element are not: each of them is compared with as it is written.  So
an alias among them counts by the group of its own name, if that has one, and not by what it
stands for, and an override of what it stands for is lost.

**Results.**
* `overridden?_eq_some_iff`: what is reported of a class because of an earlier call.
* `overridingConflicts_eq_iff`: two earlier calls report the same of a list only if they report
  the same of each class in it.
* `earlierCalls_literal`: the part of a validation that comes from earlier calls, and where it
  differs from what their expansion would give.
* `earlierAlias_unreported`: an override that is lost.
-/

namespace ClassLint

/-- The tokens with each alias replaced by what it stands for. -/
def Registry.expandEach (r : Registry) (tokens : List Text) : List Text :=
  tokens.flatMap r.expandAliases

/-- The conflict of a class with the first class of its key in an earlier call. -/
def overridden? (previous : List Text) (cls : Text) : Option StyleConflict :=
  (ConflictKey.ofClass? cls).bind (reportAfter? differing (keyedClasses previous))

/-! ## What is reported of a class -/

theorem overridingConflicts_eq_filterMap_overridden?
    (previous incoming : List Text) :
    overridingConflicts previous incoming = incoming.filterMap (overridden? previous) := by
  rw [overridingConflicts_eq_filterMap, filterMap_keyedClasses]
  rfl

theorem overridden?_eq_some_iff
    {previous : List Text} {cls : Text} {c : StyleConflict} :
    overridden? previous cls = some c ↔
      ∃ key, ConflictKey.ofClass? cls = some (key, c.current) ∧ key.scope = c.scope ∧
        (keyedClasses previous).lookup key = some c.previous ∧ c.previous ≠ c.current := by
  obtain ⟨first, base, scope⟩ := c
  rw [overridden?, Option.bind_eq_some_iff]
  simp only [reportAfter?, Option.bind_eq_some_iff, differing]
  constructor
  · rintro ⟨⟨key, other⟩, hcls, found, hfound, hreport⟩
    split at hreport
    · cases hreport
    · next hne =>
        cases hreport
        exact ⟨key, hcls, rfl, hfound, hne⟩
  · rintro ⟨key, hcls, rfl, hfound, hne⟩
    exact ⟨(key, base), hcls, first, hfound, if_neg hne⟩

theorem overridden?_eq_none_of_lookup_eq_none
    {previous : List Text} {cls base : Text} {key : ConflictKey}
    (hcls : ConflictKey.ofClass? cls = some (key, base))
    (hlookup : (keyedClasses previous).lookup key = none) :
    overridden? previous cls = none := by
  rw [overridden?, hcls, Option.bind_some, reportAfter?, hlookup]
  rfl

/-- A report shows the key and the base of the class that it is about. -/
theorem ofClass?_eq_of_overridden?
    {previous other : List Text} {cls cls' : Text} {c : StyleConflict}
    (h : overridden? previous cls = some c)
    (h' : overridden? other cls' = some c) :
    ConflictKey.ofClass? cls = ConflictKey.ofClass? cls' := by
  obtain ⟨key, hcls, hscope, -⟩ := overridden?_eq_some_iff.1 h
  obtain ⟨key', hcls', hscope', -⟩ := overridden?_eq_some_iff.1 h'
  obtain ⟨-, -, hgroup⟩ := ConflictKey.ofClass?_eq_some_iff.1 hcls
  obtain ⟨-, -, hgroup'⟩ := ConflictKey.ofClass?_eq_some_iff.1 hcls'
  have hkey : key = key' := by
    obtain ⟨scope, group⟩ := key
    obtain ⟨scope', group'⟩ := key'
    obtain rfl : scope = scope' := hscope.trans hscope'.symm
    obtain rfl : group = group' := Option.some.inj (hgroup.symm.trans hgroup')
    rfl
  rw [hcls, hcls', hkey]

/-- What one earlier call reports of some class, another one reports of it or of no class. -/
theorem overridden?_of_mem
    {previous other incoming : List Text} {cls : Text} {c : StyleConflict}
    (h : overridden? previous cls = some c)
    (hmem : c ∈ overridingConflicts other incoming) :
    overridden? other cls = some c := by
  rw [overridingConflicts_eq_filterMap_overridden?] at hmem
  obtain ⟨cls', -, hcls'⟩ := List.mem_filterMap.1 hmem
  rw [overridden?, ofClass?_eq_of_overridden? h hcls']
  exact hcls'

theorem overridingConflicts_eq_iff
    {previous other incoming : List Text} :
    overridingConflicts previous incoming = overridingConflicts other incoming ↔
      ∀ cls ∈ incoming, overridden? previous cls = overridden? other cls := by
  constructor
  · intro h cls hcls
    apply Option.ext
    intro c
    constructor
    · intro hprevious
      have hmem : c ∈ overridingConflicts previous incoming := by
        rw [overridingConflicts_eq_filterMap_overridden?]
        exact List.mem_filterMap.2 ⟨cls, hcls, hprevious⟩
      exact overridden?_of_mem hprevious (h ▸ hmem)
    · intro hother
      have hmem : c ∈ overridingConflicts other incoming := by
        rw [overridingConflicts_eq_filterMap_overridden?]
        exact List.mem_filterMap.2 ⟨cls, hcls, hother⟩
      exact overridden?_of_mem hother (h ▸ hmem)
  · intro h
    rw [overridingConflicts_eq_filterMap_overridden?,
      overridingConflicts_eq_filterMap_overridden?]
    exact List.filterMap_congr h

/-! ## What earlier calls add to a validation -/

theorem StyleConflict.toDiagnostic_injective
    (escalated : List DiagnosticKind) :
    Function.Injective (StyleConflict.toDiagnostic escalated) := by
  have hfinding : ∀ c : StyleConflict, (c.toDiagnostic escalated).finding = c.toFinding := by
    intro c
    rw [toDiagnostic, Diagnostic.escalateIn]
    split <;> rfl
  intro c d h
  have hsame : c.toFinding = d.toFinding := by rw [← hfinding c, ← hfinding d, h]
  cases c
  cases d
  cases hsame
  rfl

theorem validate_eq_append_overridingConflicts
    (registry : Registry) (escalated : List DiagnosticKind) (previous : List Text)
    (classes : Text) :
    validate ⟨registry, escalated, previous⟩ classes =
      validate ⟨registry, escalated, []⟩ classes ++
        (overridingConflicts previous (registry.expandAliases classes)).map
          (StyleConflict.toDiagnostic escalated) := by
  simp only [validate, findings, overridingConflicts_nil_left, List.map_nil, List.append_nil,
    List.map_append, List.map_map]
  rfl

theorem validate_previous_eq_iff
    (registry : Registry) (escalated : List DiagnosticKind) (previous other : List Text)
    (classes : Text) :
    validate ⟨registry, escalated, previous⟩ classes =
        validate ⟨registry, escalated, other⟩ classes ↔
      ∀ cls ∈ registry.expandAliases classes, overridden? previous cls = overridden? other cls := by
  rw [validate_eq_append_overridingConflicts registry escalated previous,
    validate_eq_append_overridingConflicts registry escalated other,
    List.append_cancel_left_eq, ← overridingConflicts_eq_iff]
  exact (List.map_injective_iff.2 (StyleConflict.toDiagnostic_injective escalated)).eq_iff

/-- Only the classes with a conflict group count among the earlier ones. -/
theorem validate_eq_of_keyedClasses_eq
    {previous other : List Text}
    (h : keyedClasses previous = keyedClasses other)
    (registry : Registry) (escalated : List DiagnosticKind) (classes : Text) :
    validate ⟨registry, escalated, previous⟩ classes =
      validate ⟨registry, escalated, other⟩ classes := by
  rw [validate_previous_eq_iff]
  intro cls _
  rw [overridden?, overridden?, h]

/-- Words that are no aliases stand for themselves. -/
theorem Registry.expandEach_of_no_aliases
    {r : Registry} {tokens : List Text}
    (h : ∀ token ∈ tokens, token.words = [token] ∧ r.aliases.get? token = none) :
    r.expandEach tokens = tokens := by
  induction tokens with
  | nil => rfl
  | cons token tokens ih =>
      obtain ⟨hwords, halias⟩ := h token List.mem_cons_self
      have hrest : r.expandEach tokens = tokens :=
        ih fun t ht => h t (List.mem_cons_of_mem _ ht)
      rw [expandEach] at hrest ⊢
      rw [List.flatMap_cons, hrest, expandAliases, hwords, List.flatMap_singleton, expandToken,
        halias]
      rfl

/--
**Earlier classes are compared with as they are written.**  What earlier calls add to a
validation is, class by class, the conflict with the first class of the same key among the
earlier ones as they are written.  With their aliases replaced the validation is the same
exactly if each class has the same such conflict then; it differs as soon as a class overrides
what only an alias brought in.  A token without a conflict group, such as the name of an alias
usually is, counts for nothing, and without aliases nothing is lost.
-/
theorem earlierCalls_literal
    (registry : Registry) (escalated : List DiagnosticKind) (previous : List Text)
    (classes : Text) :
    validate ⟨registry, escalated, previous⟩ classes =
      validate ⟨registry, escalated, []⟩ classes ++
        ((registry.expandAliases classes).filterMap (overridden? previous)).map
          (StyleConflict.toDiagnostic escalated) ∧
    (validate ⟨registry, escalated, previous⟩ classes =
        validate ⟨registry, escalated, registry.expandEach previous⟩ classes ↔
      ∀ cls ∈ registry.expandAliases classes,
        overridden? previous cls = overridden? (registry.expandEach previous) cls) ∧
    (∀ cls ∈ registry.expandAliases classes, ∀ key first base,
      ConflictKey.ofClass? cls = some (key, base) →
      (keyedClasses previous).lookup key = none →
      (keyedClasses (registry.expandEach previous)).lookup key = some first →
      first ≠ base →
      StyleConflict.toDiagnostic escalated ⟨first, base, key.scope⟩ ∈
          validate ⟨registry, escalated, registry.expandEach previous⟩ classes ∧
        validate ⟨registry, escalated, previous⟩ classes ≠
          validate ⟨registry, escalated, registry.expandEach previous⟩ classes) ∧
    (∀ before name after,
      previous = before ++ name :: after →
      ConflictKey.ofClass? name = none →
      validate ⟨registry, escalated, previous⟩ classes =
        validate ⟨registry, escalated, before ++ after⟩ classes) ∧
    ((∀ token ∈ previous, token.words = [token] ∧ registry.aliases.get? token = none) →
      validate ⟨registry, escalated, previous⟩ classes =
        validate ⟨registry, escalated, registry.expandEach previous⟩ classes) := by
  have hiff :=
    validate_previous_eq_iff registry escalated previous (registry.expandEach previous) classes
  refine ⟨?_, hiff, ?_, ?_, ?_⟩
  · rw [← overridingConflicts_eq_filterMap_overridden?]
    exact validate_eq_append_overridingConflicts registry escalated previous classes
  · intro cls hmem key first base hcls hwritten hexpanded hne
    have hreport :
        overridden? (registry.expandEach previous) cls = some ⟨first, base, key.scope⟩ :=
      overridden?_eq_some_iff.2 ⟨key, hcls, rfl, hexpanded, hne⟩
    constructor
    · rw [validate_eq_append_overridingConflicts, overridingConflicts_eq_filterMap_overridden?]
      apply List.mem_append_right
      exact List.mem_map_of_mem (List.mem_filterMap.2 ⟨cls, hmem, hreport⟩)
    · intro hsame
      have hlost := hiff.1 hsame cls hmem
      rw [overridden?_eq_none_of_lookup_eq_none hcls hwritten, hreport] at hlost
      cases hlost
  · rintro before name after rfl hname
    apply validate_eq_of_keyedClasses_eq
    rw [keyedClasses_append, keyedClasses_append, keyedClasses_cons_of_eq_none _ hname]
  · intro hwords
    rw [Registry.expandEach_of_no_aliases hwords]

/-- An alias for a padding and rounded corners. -/
def cardAlias : Registry :=
  Registry.empty.insertAlias "card".toList "p-4 rounded-lg".toList

/--
The padding of an alias behind a background is overridden, and only its expansion shows it.  The
background alone is no alias, and nothing is lost.
-/
theorem earlierCalls_literal_card :
    ConflictKey.ofClass? "card".toList = none ∧
    validate ⟨cardAlias, [], Text.ofStrings ["bg-white", "card"]⟩ "p-2".toList =
      validate ⟨cardAlias, [], Text.ofStrings ["bg-white"]⟩ "p-2".toList ∧
    StyleConflict.toDiagnostic [] ⟨"p-4".toList, "p-2".toList, []⟩ ∈
      validate ⟨cardAlias, [], cardAlias.expandEach (Text.ofStrings ["bg-white", "card"])⟩
        "p-2".toList ∧
    (∀ token ∈ Text.ofStrings ["bg-white"],
      token.words = [token] ∧ cardAlias.aliases.get? token = none) ∧
    validate ⟨cardAlias, [], Text.ofStrings ["bg-white"]⟩ "p-2".toList =
      validate ⟨cardAlias, [], cardAlias.expandEach (Text.ofStrings ["bg-white"])⟩
        "p-2".toList := by
  have hname : ConflictKey.ofClass? "card".toList = none := by decide
  have hwords :
      ∀ token ∈ Text.ofStrings ["bg-white"],
        token.words = [token] ∧ cardAlias.aliases.get? token = none := by
    decide
  obtain ⟨-, -, hlost, hgroupless, -⟩ :=
    earlierCalls_literal cardAlias [] (Text.ofStrings ["bg-white", "card"]) "p-2".toList
  obtain ⟨-, -, -, -, hplain⟩ :=
    earlierCalls_literal cardAlias [] (Text.ofStrings ["bg-white"]) "p-2".toList
  have hreported :=
    hlost "p-2".toList (by decide) ⟨[], .padding .all⟩ "p-4".toList "p-2".toList
      (by decide) (by decide) (by decide) (by decide)
  exact ⟨hname, hgroupless [_] _ [] rfl hname, hreported.1, hwords, hplain hwords⟩

/-- An override of what an alias set earlier is reported of its expansion, and not of the alias. -/
theorem earlierAlias_unreported :
    validate ⟨cardAlias, [], Text.ofStrings ["card"]⟩ "p-2".toList = [] ∧
    validate ⟨cardAlias, [], cardAlias.expandEach (Text.ofStrings ["card"])⟩ "p-2".toList =
      [⟨.warning, .conflictingStyles "p-4".toList "p-2".toList []⟩] := by
  constructor
  · decide
  · decide

end ClassLint
