import ClassLint.Proofs.Conflict.Anchor

/-!
# The influence of a class on reports

Only bases with a group are compared, so a class whose base has none leaves all reports as they
are, and no report names its base.  A class with a group conflicts with whatever is set first in
this group and its scope.

**Results.**
* `exists_ofBase?_of_isReported`: a base that is named in a report has a group.
* `leavesReports_of_ofBase?`, `leavesOverrides_of_ofBase?`: a class without a group changes nothing.
* `conflictsWithFirst_of_ofBase?`: a class conflicts with the first class of its key before it.
-/

namespace ClassLint

open ConflictGroup (ofBase?)

/-- No list is reported on differently for having the class in it. -/
def LeavesReports (cls : Text) : Prop :=
  ∀ before after,
    detectConflicts (before ++ cls :: after) = detectConflicts (before ++ after) ∧
    detectDuplicates (before ++ cls :: after) = detectDuplicates (before ++ after)

/-- No comparison of two lists comes out differently for having the class in one of them. -/
def LeavesOverrides (cls : Text) : Prop :=
  ∀ before after other,
    overridingConflicts (before ++ cls :: after) other =
      overridingConflicts (before ++ after) other ∧
    overridingConflicts other (before ++ cls :: after) =
      overridingConflicts other (before ++ after)

/-- The base of the class conflicts with the first base of the key, wherever this comes before. -/
def ConflictsWithFirst (cls base : Text) (key : ConflictKey) : Prop :=
  ∀ before after first, anchorBase? before key = some first → first ≠ base →
    ⟨first, base, key.scope⟩ ∈ detectConflicts (before ++ cls :: after)

/-- A report about some lists of classes names the base. -/
def IsReported (base : Text) : Prop :=
  (∃ classes, ∃ conflict ∈ detectConflicts classes,
      base = conflict.previous ∨ base = conflict.current) ∨
  (∃ classes, ∃ duplicate ∈ detectDuplicates classes, base = duplicate.token) ∨
  ∃ previous incoming, ∃ conflict ∈ overridingConflicts previous incoming,
    base = conflict.previous ∨ base = conflict.current

/-! ## Bases in reports -/

theorem ofBase?_of_mem_keyedClasses
    {classes : List Text} {key : ConflictKey} {base : Text}
    (h : (key, base) ∈ keyedClasses classes) :
    ofBase? base = some key.group := by
  obtain ⟨cls, -, hcls⟩ := List.mem_filterMap.1 h
  exact (ConflictKey.ofClass?_eq_some_iff.1 hcls).2.2

theorem eq_of_differing
    {key : ConflictKey} {first base : Text} {conflict : StyleConflict}
    (h : differing key first base = some conflict) :
    conflict = ⟨first, base, key.scope⟩ := by
  unfold differing at h
  split at h
  · cases h
  · exact (Option.some.inj h).symm

theorem eq_of_repeating
    {key : ConflictKey} {first base : Text} {duplicate : DuplicateStyle}
    (h : repeating key first base = some duplicate) :
    duplicate = ⟨base, key.scope⟩ := by
  unfold repeating at h
  split at h
  · exact (Option.some.inj h).symm
  · cases h

/-- A base that is named in a report has a group. -/
theorem exists_ofBase?_of_isReported
    {base : Text}
    (h : IsReported base) :
    ∃ group, ofBase? base = some group := by
  rcases h with
    ⟨classes, conflict, hconflict, hbase⟩ | ⟨classes, duplicate, hduplicate, hbase⟩ |
      ⟨previous, incoming, conflict, hconflict, hbase⟩
  · rw [detectConflicts_eq_reports] at hconflict
    obtain ⟨key, first, current, hfirst, hcurrent, hitem⟩ := exists_of_mem_reports _ hconflict
    obtain rfl := eq_of_differing hitem
    rcases hbase with rfl | rfl
    · exact ⟨_, ofBase?_of_mem_keyedClasses hfirst⟩
    · exact ⟨_, ofBase?_of_mem_keyedClasses hcurrent⟩
  · rw [detectDuplicates_eq_reports] at hduplicate
    obtain ⟨key, first, current, -, hcurrent, hitem⟩ := exists_of_mem_reports _ hduplicate
    obtain rfl := eq_of_repeating hitem
    obtain rfl := hbase
    exact ⟨_, ofBase?_of_mem_keyedClasses hcurrent⟩
  · rw [overridingConflicts_eq_filterMap] at hconflict
    obtain ⟨⟨key, current⟩, hcurrent, hreport⟩ := List.mem_filterMap.1 hconflict
    obtain ⟨first, hfirst, hitem⟩ := exists_of_reportAfter? _ hreport
    obtain rfl := eq_of_differing hitem
    rcases hbase with rfl | rfl
    · exact ⟨_, ofBase?_of_mem_keyedClasses hfirst⟩
    · exact ⟨_, ofBase?_of_mem_keyedClasses hcurrent⟩

/-! ## Classes among others -/

theorem keyedClasses_append_cons_of_eq_none
    {cls : Text}
    (h : ConflictKey.ofClass? cls = none)
    (before after : List Text) :
    keyedClasses (before ++ cls :: after) = keyedClasses (before ++ after) := by
  rw [keyedClasses_append, keyedClasses_append, keyedClasses_cons_of_eq_none after h]

theorem conflictsWithFirst_of_ofClass?
    {cls base : Text} {key : ConflictKey}
    (h : ConflictKey.ofClass? cls = some (key, base)) :
    ConflictsWithFirst cls base key := by
  intro before after first hfirst hne
  have hreport :
      reportAfter? differing ([] ++ keyedClasses before) (key, base) =
        some ⟨first, base, key.scope⟩ := by
    simp [reportAfter?, lookup_keyedClasses, hfirst, differing, hne]
  rw [detectConflicts_eq_reports, keyedClasses_append, keyedClasses_cons_of_eq_some after h,
    reports_append, reports, hreport]
  simp

section Bases

variable {cls base : Text} (hbase : (ScopedClass.ofText cls).base = base)
include hbase

theorem ofClass?_of_ofBase?_eq_none
    (hgroup : ofBase? base = none) :
    ConflictKey.ofClass? cls = none := by
  rw [ConflictKey.ofClass?_eq_none_iff, hbase, hgroup]

theorem leavesReports_of_ofBase?
    (hgroup : ofBase? base = none) :
    LeavesReports cls := by
  intro before after
  have hcls := ofClass?_of_ofBase?_eq_none hbase hgroup
  simp only [detectConflicts_eq_reports, detectDuplicates_eq_reports,
    keyedClasses_append_cons_of_eq_none hcls, and_self]

theorem leavesOverrides_of_ofBase?
    (hgroup : ofBase? base = none) :
    LeavesOverrides cls := by
  intro before after other
  have hcls := ofClass?_of_ofBase?_eq_none hbase hgroup
  simp only [overridingConflicts_eq_filterMap, keyedClasses_append_cons_of_eq_none hcls, and_self]

theorem conflictsWithFirst_of_ofBase?
    {group : ConflictGroup}
    (hgroup : ofBase? base = some group) :
    ConflictsWithFirst cls base ⟨(ScopedClass.ofText cls).scope, group⟩ := by
  apply conflictsWithFirst_of_ofClass?
  exact ConflictKey.ofClass?_eq_some_iff.2 ⟨rfl, hbase, hgroup⟩

end Bases

end ClassLint
