import ClassLint.Proofs.Conflict.Anchor
import ClassLint.Proofs.Validation.Findings
import Mathlib.Data.List.Perm.Subperm

/-!
# Class lists that continue an earlier list

A list of classes may be given in two parts, and the second part is then compared with
the first.  What the second part overrides is what the joined list reports for those of
its classes whose key the first part has.

**Results.**
* `overridingConflicts_eq_filterMap_range'`: overriding conflicts by index of the joined
  list.
* `subperm_detectConflicts_append`: the joined list reports nothing that the first part,
  the comparison, and the second part do not report between them.
* `subperm_validate_append`: the same for class strings, whatever their aliases stand for.
-/

namespace ClassLint

section Reports

variable {α : Type} (report : ConflictKey → Text → Text → Option α)

theorem reportAfter?_append_of_lookup_eq_none
    {before : List (ConflictKey × Text)} {keyed : ConflictKey × Text}
    (h : before.lookup keyed.1 = none)
    (middle : List (ConflictKey × Text)) :
    reportAfter? report before keyed = none ∧
      reportAfter? report (before ++ middle) keyed = reportAfter? report middle keyed := by
  unfold reportAfter?
  rw [List.lookup_append, h]
  exact ⟨rfl, rfl⟩

theorem reportAfter?_append_of_lookup_eq_some
    {before : List (ConflictKey × Text)} {keyed : ConflictKey × Text} {first : Text}
    (h : before.lookup keyed.1 = some first)
    (middle : List (ConflictKey × Text)) :
    reportAfter? report (before ++ middle) keyed = reportAfter? report before keyed := by
  unfold reportAfter?
  rw [List.lookup_append, h]
  rfl

/--
A report against a history in two parts is a report against the first part or one against
the second part.
-/
theorem count_reports_append_le
    [DecidableEq α] (r : α) (before middle keyed : List (ConflictKey × Text)) :
    (reports report (before ++ middle) keyed).count r ≤
      (keyed.filterMap (reportAfter? report before)).count r +
        (reports report middle keyed).count r := by
  induction keyed generalizing middle with
  | nil => exact Nat.zero_le _
  | cons head rest ih =>
      have hrest := ih (middle ++ [head])
      rw [← List.append_assoc] at hrest
      have hfilterMap :
          (head :: rest).filterMap (reportAfter? report before) =
            (reportAfter? report before head).toList ++
              rest.filterMap (reportAfter? report before) := by
        rw [List.filterMap_cons]
        cases reportAfter? report before head <;> rfl
      rw [hfilterMap]
      simp only [reports, List.count_append]
      cases hlookup : before.lookup head.1 with
      | none =>
          obtain ⟨hbefore, hmiddle⟩ :=
            reportAfter?_append_of_lookup_eq_none report hlookup middle
          rw [hbefore, hmiddle]
          simp only [Option.toList_none, List.count_nil]
          omega
      | some first =>
          rw [reportAfter?_append_of_lookup_eq_some report hlookup middle]
          omega

end Reports

/-- Whether the class at an index of a list has a key of the previous list. -/
def recurs (previous classes : List Text) (i : Nat) : Bool :=
  (keyedAt? classes i).any fun keyed => previous.any (hasKey keyed.1)

theorem any_hasKey_eq_isSome_lookup
    (classes : List Text) (key : ConflictKey) :
    classes.any (hasKey key) = ((keyedClasses classes).lookup key).isSome := by
  induction classes with
  | nil => rfl
  | cons cls classes ih =>
      rw [List.any_cons, ih]
      cases hcls : ConflictKey.ofClass? cls with
      | none =>
          rw [keyedClasses_cons_of_eq_none _ hcls]
          simp [hasKey, hcls]
      | some keyed =>
          obtain ⟨other, base⟩ := keyed
          rw [keyedClasses_cons_of_eq_some _ hcls, List.lookup_cons]
          by_cases h : key = other
          · simp [hasKey, hcls, h]
          · have hne : (key == other) = false := by simpa using h
            simp [hasKey, hcls, hne, Ne.symm h]

theorem overridesPrevious_iff
    (previous incoming : List Text) :
    overridesPrevious previous incoming = true ↔
      overridingConflicts previous incoming ≠ [] := by
  rw [overridesPrevious_eq_any, overridingConflicts_eq_filterMap, filterMap_keyedClasses,
    ne_eq, List.filterMap_eq_nil_iff, List.any_eq_true]
  simp only [not_forall, Option.isSome_iff_ne_none, exists_prop]

theorem keyedAt?_append_right
    (xs ys : List Text) (j : Nat) :
    keyedAt? (xs ++ ys) (xs.length + j) = keyedAt? ys j := by
  unfold keyedAt?
  rw [List.getElem?_append_right (Nat.le_add_right _ _), Nat.add_sub_cancel_left]

theorem filterMap_eq_filterMap_range
    {α : Type} (f : ConflictKey × Text → Option α) (classes : List Text) :
    (keyedClasses classes).filterMap f =
      (List.range classes.length).filterMap fun j => (keyedAt? classes j).bind f := by
  induction classes with
  | nil => rfl
  | cons cls classes ih =>
      rw [filterMap_keyedClasses] at ih ⊢
      rw [List.length_cons, List.range_succ_eq_map, List.filterMap_cons, ih,
        List.filterMap_cons, List.filterMap_map]
      rfl

/-- What the second part overrides, in the order of the joined list. -/
theorem overridingConflicts_eq_filterMap_range'
    (previous incoming : List Text) :
    overridingConflicts previous incoming =
      ((List.range' previous.length incoming.length).filter
        (recurs previous (previous ++ incoming))).filterMap
          (conflictAt? (previous ++ incoming)) := by
  rw [overridingConflicts_eq_filterMap, filterMap_eq_filterMap_range,
    List.range'_eq_map_range, List.filterMap_filter, List.filterMap_map]
  congr 1
  funext j
  simp only [Function.comp_def, conflictAt?_eq_bind, recurs, keyedAt?_append_right,
    List.take_length_add_append, keyedClasses_append, any_hasKey_eq_isSome_lookup]
  cases keyedAt? incoming j with
  | none => simp
  | some keyed =>
      simp only [Option.bind_some, Option.any_some]
      cases h : (keyedClasses previous).lookup keyed.1 with
      | none =>
          rw [(reportAfter?_append_of_lookup_eq_none differing h []).1]
          simp
      | some first =>
          rw [reportAfter?_append_of_lookup_eq_some differing h]
          simp

theorem detectConflicts_append
    (previous incoming : List Text) :
    detectConflicts (previous ++ incoming) =
      detectConflicts previous ++
        reports differing (keyedClasses previous) (keyedClasses incoming) := by
  simp only [detectConflicts_eq_reports, keyedClasses_append, reports_append,
    List.nil_append]

theorem subperm_detectConflicts_append
    (previous incoming : List Text) :
    (detectConflicts (previous ++ incoming)).Subperm
      (detectConflicts previous ++ overridingConflicts previous incoming ++
        detectConflicts incoming) := by
  rw [List.subperm_iff_count]
  intro r
  have hcount :=
    count_reports_append_le differing r (keyedClasses previous) []
      (keyedClasses incoming)
  rw [List.append_nil, ← overridingConflicts_eq_filterMap,
    ← detectConflicts_eq_reports] at hcount
  rw [detectConflicts_append]
  simp only [List.count_append]
  omega

theorem overridingConflicts_nil_left
    (incoming : List Text) :
    overridingConflicts [] incoming = [] := by
  rw [overridingConflicts_eq_filterMap, List.filterMap_eq_nil_iff]
  intro keyed _
  rfl

/-- The conflicts of a class string are among those of its two parts. -/
theorem subperm_validate_append
    (registry : Registry) (escalated : List DiagnosticKind) (a b : Text) :
    ((validate ⟨registry, escalated, []⟩ (a ++ ' ' :: b)).filter
        (fun d => d.kind = .conflictingStyles)).Subperm
      ((validate ⟨registry, escalated, []⟩ a ++
          validate ⟨registry, escalated, registry.expandAliases a⟩ b).filter
        (fun d => d.kind = .conflictingStyles)) := by
  have hblank : isBlank ' ' = true := rfl
  simp only [List.filter_append, filter_conflictingStyles_validate,
    registry.expandAliases_append_cons hblank, overridingConflicts_nil_left,
    List.append_nil, ← List.map_append]
  have hsub :=
    subperm_detectConflicts_append (registry.expandAliases a) (registry.expandAliases b)
  rw [List.append_assoc] at hsub
  obtain ⟨kept, hperm, hkept⟩ :=
    hsub.trans (List.Perm.append_left _ List.perm_append_comm).subperm
  exact ⟨kept.map _, hperm.map _, hkept.map _⟩

/--
**Two calls lose no conflict.**  The quick test agrees with the list of overriding
conflicts; that list is, in order, the part of the joined list's own conflicts that
belongs to classes whose key comes from the first part; and every conflict of the joined
list, or of a joined class string, is reported for one of the parts or between them.
-/
theorem continuation_complete :
    (∀ previous incoming : List Text,
      (overridesPrevious previous incoming = true ↔
        overridingConflicts previous incoming ≠ []) ∧
      detectConflicts (previous ++ incoming) =
        detectConflicts previous ++
          (List.range' previous.length incoming.length).filterMap
            (conflictAt? (previous ++ incoming)) ∧
      overridingConflicts previous incoming =
        ((List.range' previous.length incoming.length).filter
          (recurs previous (previous ++ incoming))).filterMap
            (conflictAt? (previous ++ incoming)) ∧
      (detectConflicts (previous ++ incoming)).Subperm
        (detectConflicts previous ++ overridingConflicts previous incoming ++
          detectConflicts incoming)) ∧
    (∀ (registry : Registry) (escalated : List DiagnosticKind) (a b : Text),
      ((validate ⟨registry, escalated, []⟩ (a ++ ' ' :: b)).filter
          (fun d => d.kind = .conflictingStyles)).Subperm
        ((validate ⟨registry, escalated, []⟩ a ++
            validate ⟨registry, escalated, registry.expandAliases a⟩ b).filter
          (fun d => d.kind = .conflictingStyles))) := by
  refine ⟨?_, subperm_validate_append⟩
  intro previous incoming
  refine ⟨overridesPrevious_iff previous incoming, ?_,
    overridingConflicts_eq_filterMap_range' previous incoming,
    subperm_detectConflicts_append previous incoming⟩
  rw [detectConflicts_append, reports_eq_filterMap_range, List.range'_eq_map_range,
    List.filterMap_map]
  congr 2
  funext j
  simp only [Function.comp_def, conflictAt?_eq_bind, keyedAt?_append_right,
    List.take_length_add_append, keyedClasses_append]

end ClassLint
