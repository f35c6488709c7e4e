import ClassLint.Utility.Conflict
import Mathlib.Data.List.Basic

/-!
# Conflicts against the whole history

The detectors carry a table with the first base of each key.  Here the table is replaced
by the list of everything that came before, in which the first base of a key is looked
up from the front.

**Results.**
* `Represents.note`: noting a base keeps the table in step with the history.
* `conflicts_eq_reports`, `duplicates_eq_reports`: both detectors are the same recursion
  on the history, with two different reports.
* `overridingConflicts_eq_filterMap`, `overridesPrevious_eq_any`: classes of a later call
  are compared with the history of the earlier call only.
-/

namespace ClassLint

/-- The keys and the bases of the classes that have a conflict group. -/
def keyedClasses (classes : List Text) : List (ConflictKey × Text) :=
  classes.filterMap ConflictKey.ofClass?

@[simp] theorem keyedClasses_nil :
    keyedClasses [] = [] :=
  rfl

@[simp] theorem keyedClasses_append
    (xs ys : List Text) :
    keyedClasses (xs ++ ys) = keyedClasses xs ++ keyedClasses ys :=
  List.filterMap_append

theorem keyedClasses_cons_of_eq_none
    {cls : Text} (classes : List Text)
    (h : ConflictKey.ofClass? cls = none) :
    keyedClasses (cls :: classes) = keyedClasses classes :=
  List.filterMap_cons_none h

theorem keyedClasses_cons_of_eq_some
    {cls base : Text} {key : ConflictKey} (classes : List Text)
    (h : ConflictKey.ofClass? cls = some (key, base)) :
    keyedClasses (cls :: classes) = (key, base) :: keyedClasses classes :=
  List.filterMap_cons_some h

theorem filterMap_keyedClasses
    {α : Type} (f : ConflictKey × Text → Option α) (classes : List Text) :
    (keyedClasses classes).filterMap f =
      classes.filterMap fun cls => (ConflictKey.ofClass? cls).bind f :=
  List.filterMap_filterMap

/-- The report of a base that differs from the first base of its key. -/
def differing (key : ConflictKey) (first base : Text) : Option StyleConflict :=
  if first = base then none else some ⟨first, base, key.scope⟩

/-- The report of a base that repeats the first base of its key. -/
def repeating (key : ConflictKey) (first base : Text) : Option DuplicateStyle :=
  if first = base then some ⟨base, key.scope⟩ else none

section Reports

variable {α : Type} (report : ConflictKey → Text → Text → Option α)

/-- The report about a base and the first base of its key in a history. -/
def reportAfter? (before : List (ConflictKey × Text)) (keyed : ConflictKey × Text) :
    Option α :=
  (before.lookup keyed.1).bind fun first => report keyed.1 first keyed.2

/-- The reports about some bases, each against everything that came before it. -/
def reports (before : List (ConflictKey × Text)) : List (ConflictKey × Text) → List α
  | [] => []
  | keyed :: rest =>
      (reportAfter? report before keyed).toList ++ reports (before ++ [keyed]) rest

theorem reports_append
    (before xs ys : List (ConflictKey × Text)) :
    reports report before (xs ++ ys) =
      reports report before xs ++ reports report (before ++ xs) ys := by
  induction xs generalizing before with
  | nil => simp [reports]
  | cons keyed xs ih =>
      rw [List.cons_append, reports, reports, ih]
      simp only [List.append_assoc, List.singleton_append]

/-- A report names the base that it is about and a base of the same key in the history. -/
theorem exists_of_reportAfter?
    {before : List (ConflictKey × Text)} {key : ConflictKey} {base : Text} {item : α}
    (h : reportAfter? report before (key, base) = some item) :
    ∃ first, (key, first) ∈ before ∧ report key first base = some item := by
  obtain ⟨first, hlookup, hitem⟩ := Option.bind_eq_some_iff.1 h
  obtain ⟨front, back, rfl, -⟩ := List.lookup_eq_some_iff.1 hlookup
  exact ⟨first, by simp, hitem⟩

theorem exists_of_mem_reports
    {before keyed : List (ConflictKey × Text)} {item : α}
    (h : item ∈ reports report before keyed) :
    ∃ key first base, (key, first) ∈ before ++ keyed ∧ (key, base) ∈ keyed ∧
      report key first base = some item := by
  induction keyed generalizing before with
  | nil => cases h
  | cons head rest ih =>
      obtain ⟨key, base⟩ := head
      rcases List.mem_append.1 h with hhead | hrest
      · obtain ⟨first, hfirst, hitem⟩ :=
          exists_of_reportAfter? report (Option.mem_toList.1 hhead)
        exact ⟨key, first, base, List.mem_append_left _ hfirst, List.mem_cons_self, hitem⟩
      · obtain ⟨key, first, base, hfirst, hbase, hitem⟩ := ih hrest
        refine ⟨key, first, base, ?_, List.mem_cons_of_mem _ hbase, hitem⟩
        simpa using hfirst

end Reports

namespace FirstSeen

/-- The table gives each key the base that comes first for it in the history. -/
def Represents (seen : FirstSeen) (before : List (ConflictKey × Text)) : Prop :=
  ∀ key, seen.base? key = before.lookup key

theorem represents_empty :
    Represents empty [] :=
  fun _ => rfl

/-- A key keeps its first base; a new key gets the noted one. -/
theorem base?_note
    (seen : FirstSeen) (key other : ConflictKey) (base : Text) :
    (seen.note key base).base? other =
      (seen.base? other).or (List.lookup other [(key, base)]) := by
  unfold note
  cases hkey : seen.base? key with
  | none => exact List.lookup_append
  | some first =>
      by_cases h : other = key
      · subst h
        simp [hkey]
      · have hne : (other == key) = false := by simpa using h
        simp [List.lookup_cons, hne]

theorem Represents.note
    {seen : FirstSeen} {before : List (ConflictKey × Text)}
    (h : seen.Represents before)
    (key : ConflictKey) (base : Text) :
    (seen.note key base).Represents (before ++ [(key, base)]) := by
  intro other
  rw [base?_note, h other, List.lookup_append]

theorem Represents.noteAll
    {seen : FirstSeen} {before : List (ConflictKey × Text)}
    (h : seen.Represents before)
    (classes : List Text) :
    (seen.noteAll classes).Represents (before ++ keyedClasses classes) := by
  induction classes generalizing seen before with
  | nil => simpa [FirstSeen.noteAll] using h
  | cons cls classes ih =>
      unfold FirstSeen.noteAll
      cases hcls : ConflictKey.ofClass? cls with
      | none =>
          rw [keyedClasses_cons_of_eq_none _ hcls]
          exact ih h
      | some keyed =>
          obtain ⟨key, base⟩ := keyed
          rw [keyedClasses_cons_of_eq_some _ hcls]
          simpa using ih (h.note key base)

theorem Represents.conflict?_eq
    {seen : FirstSeen} {before : List (ConflictKey × Text)}
    (h : seen.Represents before)
    (key : ConflictKey) (base : Text) :
    seen.conflict? key base = reportAfter? differing before (key, base) := by
  unfold conflict? reportAfter?
  rw [h key]
  cases before.lookup key <;> rfl

theorem Represents.duplicate?_eq
    {seen : FirstSeen} {before : List (ConflictKey × Text)}
    (h : seen.Represents before)
    (key : ConflictKey) (base : Text) :
    seen.duplicate? key base = reportAfter? repeating before (key, base) := by
  unfold duplicate? reportAfter?
  rw [h key]
  cases before.lookup key <;> rfl

theorem Represents.conflicts_eq_reports
    {seen : FirstSeen} {before : List (ConflictKey × Text)}
    (h : seen.Represents before)
    (classes : List Text) :
    seen.conflicts classes = reports differing before (keyedClasses classes) := by
  induction classes generalizing seen before with
  | nil => rfl
  | cons cls classes ih =>
      unfold conflicts
      cases hcls : ConflictKey.ofClass? cls with
      | none =>
          rw [keyedClasses_cons_of_eq_none _ hcls]
          exact ih h
      | some keyed =>
          obtain ⟨key, base⟩ := keyed
          rw [keyedClasses_cons_of_eq_some _ hcls, reports, ← ih (h.note key base)]
          simp only [h.conflict?_eq]

theorem Represents.duplicates_eq_reports
    {seen : FirstSeen} {before : List (ConflictKey × Text)}
    (h : seen.Represents before)
    (classes : List Text) :
    seen.duplicates classes = reports repeating before (keyedClasses classes) := by
  induction classes generalizing seen before with
  | nil => rfl
  | cons cls classes ih =>
      unfold duplicates
      cases hcls : ConflictKey.ofClass? cls with
      | none =>
          rw [keyedClasses_cons_of_eq_none _ hcls]
          exact ih h
      | some keyed =>
          obtain ⟨key, base⟩ := keyed
          rw [keyedClasses_cons_of_eq_some _ hcls, reports, ← ih (h.note key base)]
          simp only [h.duplicate?_eq]

end FirstSeen

theorem detectConflicts_eq_reports
    (classes : List Text) :
    detectConflicts classes = reports differing [] (keyedClasses classes) :=
  FirstSeen.represents_empty.conflicts_eq_reports classes

theorem detectDuplicates_eq_reports
    (classes : List Text) :
    detectDuplicates classes = reports repeating [] (keyedClasses classes) :=
  FirstSeen.represents_empty.duplicates_eq_reports classes

theorem overridingConflicts_eq_filterMap
    (previous incoming : List Text) :
    overridingConflicts previous incoming =
      (keyedClasses incoming).filterMap (reportAfter? differing (keyedClasses previous)) := by
  have h := FirstSeen.represents_empty.noteAll previous
  rw [filterMap_keyedClasses]
  simp only [overridingConflicts, h.conflict?_eq]
  rfl

theorem overridesPrevious_eq_any
    (previous incoming : List Text) :
    overridesPrevious previous incoming =
      incoming.any fun cls =>
        ((ConflictKey.ofClass? cls).bind
          (reportAfter? differing (keyedClasses previous))).isSome := by
  have h := FirstSeen.represents_empty.noteAll previous
  simp only [overridesPrevious, h.conflict?_eq]
  congr 1
  funext cls
  cases ConflictKey.ofClass? cls <;> rfl

end ClassLint
