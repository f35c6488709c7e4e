import ClassLint.Proofs.Conflict.Anchor

/-!
# Repeats that are reported and repeats that are not

A class repeats an earlier one when both have the same scope and the same base.  The
detector compares a class with the anchor of its key only, so it reports the repeat if the
earlier class is as the anchor is.  Between two equal classes that come after a different
anchor no repetition is reported: the second one, like the first, is a conflict with the
anchor.

What is reported for the class at an index is what the reports of the list up to and with it
have more than those of the list up to it.

**Results.**
* `isRepeat_iff`: a grouped class has the key of what it repeats.
* `reports_take_succ`: one class adds its own report to those before it.
* `repetition_reported`: a repeat is reported exactly when its base is that of the anchor,
  and is reported as a conflict otherwise.
* `repetition_unreported`: a repeat of which no repetition is reported.
-/

namespace ClassLint

/-- The class at the index has the scope and the base of an earlier class. -/
def IsRepeat (classes : List Text) (i : Nat) : Prop :=
  ∃ j earlier cls, j < i ∧ classes[j]? = some earlier ∧ classes[i]? = some cls ∧
    (ScopedClass.ofText earlier).scope = (ScopedClass.ofText cls).scope ∧
    (ScopedClass.ofText earlier).base = (ScopedClass.ofText cls).base

/-- The class at the index adds the repetition to the report. -/
def AddsDuplicate (classes : List Text) (i : Nat) (d : DuplicateStyle) : Prop :=
  detectDuplicates (classes.take (i + 1)) = detectDuplicates (classes.take i) ++ [d]

/-- The class at the index adds the conflict to the report. -/
def AddsConflict (classes : List Text) (i : Nat) (c : StyleConflict) : Prop :=
  detectConflicts (classes.take (i + 1)) = detectConflicts (classes.take i) ++ [c]

/-! ## Keys of repeats -/

theorem keyedAt?_eq_some_iff
    {classes : List Text} {i : Nat} {key : ConflictKey} {base : Text} :
    keyedAt? classes i = some (key, base) ↔
      ∃ cls, classes[i]? = some cls ∧ ConflictKey.ofClass? cls = some (key, base) := by
  rw [keyedAt?, Option.bind_eq_some_iff]

/-- For a grouped class, a repeat is an earlier class with the same key and the same base. -/
theorem isRepeat_iff
    {classes : List Text} {i : Nat} {key : ConflictKey} {base : Text}
    (h : keyedAt? classes i = some (key, base)) :
    IsRepeat classes i ↔ ∃ j < i, keyedAt? classes j = some (key, base) := by
  obtain ⟨cls, hcls, hkeyed⟩ := keyedAt?_eq_some_iff.1 h
  obtain ⟨hscope, hbase, hgroup⟩ := ConflictKey.ofClass?_eq_some_iff.1 hkeyed
  constructor
  · rintro ⟨j, earlier, other, hj, hearlier, hother, hsame⟩
    obtain rfl : cls = other := Option.some.inj (hcls.symm.trans hother)
    rw [hscope, hbase] at hsame
    refine ⟨j, hj, keyedAt?_eq_some_iff.2 ⟨earlier, hearlier, ?_⟩⟩
    exact ConflictKey.ofClass?_eq_some_iff.2 ⟨hsame.1, hsame.2, hgroup⟩
  · rintro ⟨j, hj, hkey⟩
    obtain ⟨earlier, hearlier, hother⟩ := keyedAt?_eq_some_iff.1 hkey
    obtain ⟨hscope', hbase', -⟩ := ConflictKey.ofClass?_eq_some_iff.1 hother
    exact ⟨j, earlier, cls, hj, hearlier, hcls, hscope'.trans hscope.symm,
      hbase'.trans hbase.symm⟩

/-! ## Reports class by class -/

theorem keyedClasses_take_succ
    (classes : List Text) (i : Nat) :
    keyedClasses (classes.take (i + 1)) =
      keyedClasses (classes.take i) ++ (keyedAt? classes i).toList := by
  rw [List.take_add_one, keyedClasses_append, keyedAt?]
  cases classes[i]? with
  | none => rfl
  | some cls =>
      cases hcls : ConflictKey.ofClass? cls <;> simp [keyedClasses, hcls]

theorem reports_take_succ
    {α : Type} (report : ConflictKey → Text → Text → Option α)
    (classes : List Text) (i : Nat) :
    reports report [] (keyedClasses (classes.take (i + 1))) =
      reports report [] (keyedClasses (classes.take i)) ++
        ((keyedAt? classes i).bind
          (reportAfter? report (keyedClasses (classes.take i)))).toList := by
  rw [keyedClasses_take_succ, reports_append]
  cases keyedAt? classes i with
  | none => simp [reports]
  | some keyed => simp [reports]

theorem detectDuplicates_take_succ
    (classes : List Text) (i : Nat) :
    detectDuplicates (classes.take (i + 1)) =
      detectDuplicates (classes.take i) ++ (duplicateAt? classes i).toList := by
  rw [detectDuplicates_eq_reports, detectDuplicates_eq_reports, reports_take_succ,
    duplicateAt?_eq_bind]

theorem detectConflicts_take_succ
    (classes : List Text) (i : Nat) :
    detectConflicts (classes.take (i + 1)) =
      detectConflicts (classes.take i) ++ (conflictAt? classes i).toList := by
  rw [detectConflicts_eq_reports, detectConflicts_eq_reports, reports_take_succ,
    conflictAt?_eq_bind]

/-- What is reported for the first classes stays reported when more follow. -/
theorem detectDuplicates_take_isPrefix
    (classes : List Text) (i : Nat) :
    detectDuplicates (classes.take i) <+: detectDuplicates classes := by
  have hsplit :
      keyedClasses classes = keyedClasses (classes.take i) ++ keyedClasses (classes.drop i) := by
    rw [← keyedClasses_append, List.take_append_drop]
  rw [detectDuplicates_eq_reports, detectDuplicates_eq_reports, hsplit, reports_append]
  exact List.prefix_append _ _

theorem addsDuplicate_iff
    {classes : List Text} {i : Nat} {d : DuplicateStyle} :
    AddsDuplicate classes i d ↔ duplicateAt? classes i = some d := by
  rw [AddsDuplicate, detectDuplicates_take_succ, List.append_cancel_left_eq,
    Option.toList_eq_singleton_iff]

theorem addsConflict_iff
    {classes : List Text} {i : Nat} {c : StyleConflict} :
    AddsConflict classes i c ↔ conflictAt? classes i = some c := by
  rw [AddsConflict, detectConflicts_take_succ, List.append_cancel_left_eq,
    Option.toList_eq_singleton_iff]

/-! ## Reported repeats -/

/-- A class with the base of its anchor is a repeat unless it is the anchor. -/
theorem isRepeat_iff_anchor_lt
    {classes : List Text} {i a : Nat} {key : ConflictKey} {base : Text}
    (h : keyedAt? classes i = some (key, base))
    (ha : anchor? classes key = some a)
    (hfirst : keyedAt? classes a = some (key, base)) :
    IsRepeat classes i ↔ a < i := by
  rw [isRepeat_iff h]
  constructor
  · rintro ⟨j, hj, hkey⟩
    by_contra hge
    exact (anchor?_eq_some_iff.1 ha).2 j (by omega) base hkey
  · intro hlt
    exact ⟨a, hlt, hfirst⟩

/--
**Reported repeats.**  A grouped class adds a repetition to the report, of its base and in its
scope, exactly when an earlier class has this scope and this base and so has the first class
of the scope and the group.  A repeat of another class than that first one adds nothing to the
repetitions; it is a conflict with the first class.
-/
theorem repetition_reported
    {classes : List Text} {i : Nat} {key : ConflictKey} {base : Text}
    (h : keyedAt? classes i = some (key, base)) :
    detectDuplicates (classes.take (i + 1)) <+: detectDuplicates classes ∧
    (AddsDuplicate classes i ⟨base, key.scope⟩ ↔
      IsRepeat classes i ∧ anchorBase? classes key = some base) ∧
    (IsRepeat classes i → anchorBase? classes key ≠ some base →
      detectDuplicates (classes.take (i + 1)) = detectDuplicates (classes.take i) ∧
      ∃ first, anchorBase? classes key = some first ∧
        AddsConflict classes i ⟨first, base, key.scope⟩) := by
  obtain ⟨a, first, ha, -, hfirst⟩ := exists_anchor h
  have hanchor := anchorBase?_eq_some ha hfirst
  refine ⟨detectDuplicates_take_isPrefix classes (i + 1), ?_, ?_⟩
  · rw [addsDuplicate_iff, hanchor, Option.some.injEq]
    by_cases hbase : first = base
    · subst hbase
      rw [isRepeat_iff_anchor_lt h ha hfirst]
      simp [duplicateAt?, h, ha, hanchor]
    · simp [duplicateAt?, h, ha, hanchor, hbase]
  · intro _ hne
    have hbase : first ≠ base := by
      rintro rfl
      exact hne hanchor
    refine ⟨?_, first, hanchor, addsConflict_iff.2 ?_⟩
    · rw [detectDuplicates_take_succ]
      simp [duplicateAt?, h, ha, hanchor, hbase]
    · simp [conflictAt?, h, hanchor, hbase]

/-- The class comes back to the first padding after two others that are equal. -/
theorem repetition_reported_return :
    keyedAt? (Text.ofStrings ["p-4", "p-2", "p-2", "p-4"]) 3 =
        some (⟨[], .padding .all⟩, "p-4".toList) ∧
    AddsDuplicate (Text.ofStrings ["p-4", "p-2", "p-2", "p-4"]) 3 ⟨"p-4".toList, []⟩ := by
  have h :
      keyedAt? (Text.ofStrings ["p-4", "p-2", "p-2", "p-4"]) 3 =
        some (⟨[], .padding .all⟩, "p-4".toList) := by
    decide
  refine ⟨h, (repetition_reported h).2.1.2 ⟨?_, by decide⟩⟩
  exact ⟨0, "p-4".toList, "p-4".toList, by decide, by decide, by decide, rfl, rfl⟩

/-- The third class repeats the second one and no repetition is reported. -/
theorem repetition_unreported :
    keyedAt? (Text.ofStrings ["p-4", "p-2", "p-2"]) 2 =
        some (⟨[], .padding .all⟩, "p-2".toList) ∧
    IsRepeat (Text.ofStrings ["p-4", "p-2", "p-2"]) 2 ∧
    detectDuplicates (Text.ofStrings ["p-4", "p-2", "p-2"]) = [] := by
  refine ⟨by decide, ?_, by decide⟩
  exact ⟨1, "p-2".toList, "p-2".toList, by decide, by decide, by decide, rfl, rfl⟩

end ClassLint
