import ClassLint.Proofs.Conflict.History
import ClassLint.Proofs.Scope.Factorisation

/-!
# Conflicts under a common variant

Every class of a list may be qualified by one more variant.  A variant that is a single
closed segment becomes the first variant of each class, so scopes change and bases do not.
The new scopes are equal exactly where the old ones were, and so no two keys fall together
or come apart.

A class that begins with a colon has the empty text as its first variant.  Without further
variants its scope is that of a class without any, but qualified the two scopes differ.
Such classes are left out.

**Results.**
* `ofText_qualify`: the parts of a qualified class.
* `reports_map_rekey`: reports are the same under any renaming of scopes that keeps them
  apart.
* `detection_qualified`: the detectors on qualified classes.
-/

namespace ClassLint

/-- A class with one more variant in front. -/
def Text.qualify (v cls : Text) : Text :=
  v ++ ':' :: cls

/-- A scope with one more variant in front. -/
def Text.qualifyScope (v scope : Text) : Text :=
  if scope = [] then v else v ++ ':' :: scope

theorem Text.qualifyScope_injective
    (v : Text) :
    Function.Injective v.qualifyScope := by
  intro s t h
  cases s <;> cases t <;> simp_all [Text.qualifyScope]

/-! ## Classes -/

theorem Text.segments_qualify
    {v : Text}
    (hone : v.segments = [v])
    (hclosed : Depth.outermost.after v = Depth.outermost)
    (cls : Text) :
    (v.qualify cls).segments = v :: cls.segments := by
  have hmeets : Depth.meets ':' Depth.outermost v = false :=
    (isFactorisation_segments v).not_meets v (by simp [hone])
  exact segmentsFrom_append_colon hmeets hclosed cls

theorem ScopedClass.ofText_qualify
    {v : Text}
    (hone : v.segments = [v])
    (hclosed : Depth.outermost.after v = Depth.outermost)
    (cls : Text) :
    ofText (v.qualify cls) = ⟨v :: (ofText cls).variants, (ofText cls).base⟩ := by
  have hne : cls.segments ≠ [] := Text.segmentsFrom_ne_nil _ _
  have hsegments := Text.segments_qualify hone hclosed cls
  simp only [ofText, hsegments, List.dropLast_cons_of_ne_nil hne, List.getLast_cons hne]

/-- Only a class without variants has the empty scope, unless it begins with a colon. -/
theorem ScopedClass.variants_eq_nil_of_scope_eq_nil
    {cls : Text}
    (hcolon : cls.head? ≠ some ':')
    (hscope : (ofText cls).scope = []) :
    (ofText cls).variants = [] := by
  have htext := toText_ofText cls
  rw [toText] at htext
  split at htext
  · assumption
  · rw [hscope] at htext
    rw [← htext] at hcolon
    exact absurd rfl hcolon

theorem ScopedClass.scope_cons
    {cls : Text}
    (hcolon : cls.head? ≠ some ':')
    (v base : Text) :
    scope ⟨v :: (ofText cls).variants, base⟩ = v.qualifyScope (ofText cls).scope := by
  by_cases hvariants : (ofText cls).variants = []
  · have hscope : (ofText cls).scope = [] := by
      rw [scope, hvariants]
      rfl
    rw [Text.qualifyScope, if_pos hscope, hvariants]
    rfl
  · have hscope : (ofText cls).scope ≠ [] := by
      intro h
      exact hvariants (variants_eq_nil_of_scope_eq_nil hcolon h)
    rw [Text.qualifyScope, if_neg hscope, scope, Text.join_cons_of_ne_nil _ _ hvariants]
    simp [scope]

/-! ## Renamed scopes -/

/-- The key with another scope. -/
def ConflictKey.rescope (f : Text → Text) (key : ConflictKey) : ConflictKey :=
  { key with scope := f key.scope }

/-- The same conflict in another scope. -/
def StyleConflict.rescope (f : Text → Text) (c : StyleConflict) : StyleConflict :=
  { c with scope := f c.scope }

/-- The same repetition in another scope. -/
def DuplicateStyle.rescope (f : Text → Text) (d : DuplicateStyle) : DuplicateStyle :=
  { d with scope := f d.scope }

/-- A key in another scope, with its base. -/
def rekey (f : Text → Text) (keyed : ConflictKey × Text) : ConflictKey × Text :=
  (keyed.1.rescope f, keyed.2)

theorem ConflictKey.rescope_injective
    {f : Text → Text}
    (hf : Function.Injective f) :
    Function.Injective (rescope f) := by
  rintro ⟨scope, group⟩ ⟨otherScope, otherGroup⟩ h
  simp only [rescope, mk.injEq] at h ⊢
  exact ⟨hf h.1, h.2⟩

theorem ConflictKey.ofClass?_qualify
    {v cls : Text}
    (hone : v.segments = [v])
    (hclosed : Depth.outermost.after v = Depth.outermost)
    (hcolon : cls.head? ≠ some ':') :
    ofClass? (v.qualify cls) = (ofClass? cls).map (rekey v.qualifyScope) := by
  simp only [ofClass?, ScopedClass.ofText_qualify hone hclosed, ScopedClass.scope_cons hcolon,
    Option.map_map]
  rfl

theorem keyedClasses_map_qualify
    {v : Text} {classes : List Text}
    (hone : v.segments = [v])
    (hclosed : Depth.outermost.after v = Depth.outermost)
    (hcolon : ∀ cls ∈ classes, cls.head? ≠ some ':') :
    keyedClasses (classes.map v.qualify) = (keyedClasses classes).map (rekey v.qualifyScope) := by
  rw [keyedClasses, keyedClasses, List.filterMap_map, List.map_filterMap]
  apply List.filterMap_congr
  intro cls hcls
  exact ConflictKey.ofClass?_qualify hone hclosed (hcolon cls hcls)

section Renaming

variable {f : Text → Text} (hf : Function.Injective f)
include hf

/-- Keys that are kept apart are found where they were. -/
theorem lookup_map_rekey
    (before : List (ConflictKey × Text)) (key : ConflictKey) :
    (before.map (rekey f)).lookup (key.rescope f) = before.lookup key := by
  induction before with
  | nil => rfl
  | cons keyed before ih =>
      obtain ⟨other, base⟩ := keyed
      have hsame : (key.rescope f == other.rescope f) = (key == other) := by
        rw [Bool.eq_iff_iff, beq_iff_eq, beq_iff_eq, (ConflictKey.rescope_injective hf).eq_iff]
      simp only [List.map_cons, rekey, List.lookup_cons, hsame, ← ih]

variable {α : Type} {report : ConflictKey → Text → Text → Option α} {g : α → α}
  (hreport : ∀ key first base, report (key.rescope f) first base = (report key first base).map g)
include hreport

theorem reportAfter?_map_rekey
    (before : List (ConflictKey × Text)) (keyed : ConflictKey × Text) :
    reportAfter? report (before.map (rekey f)) (rekey f keyed) =
      (reportAfter? report before keyed).map g := by
  have hlookup : (before.map (rekey f)).lookup (rekey f keyed).1 = before.lookup keyed.1 :=
    lookup_map_rekey hf before keyed.1
  rw [reportAfter?, reportAfter?, hlookup]
  cases before.lookup keyed.1 with
  | none => rfl
  | some first => exact hreport keyed.1 first keyed.2

theorem reports_map_rekey
    (before keyed : List (ConflictKey × Text)) :
    reports report (before.map (rekey f)) (keyed.map (rekey f)) =
      (reports report before keyed).map g := by
  induction keyed generalizing before with
  | nil => rfl
  | cons head rest ih =>
      have hrest := ih (before ++ [head])
      rw [List.map_append] at hrest
      simp only [List.map_cons, List.map_nil, reports, List.map_append] at hrest ⊢
      rw [hrest, reportAfter?_map_rekey hf hreport]
      cases reportAfter? report before head <;> rfl

end Renaming

theorem differing_rescope
    (f : Text → Text) (key : ConflictKey) (first base : Text) :
    differing (key.rescope f) first base =
      (differing key first base).map (StyleConflict.rescope f) := by
  rw [differing, differing]
  split <;> rfl

theorem repeating_rescope
    (f : Text → Text) (key : ConflictKey) (first base : Text) :
    repeating (key.rescope f) first base =
      (repeating key first base).map (DuplicateStyle.rescope f) := by
  rw [repeating, repeating]
  split <;> rfl

/--
**Detection under a variant.**  A variant that is one segment and leaves no bracket or
parenthesis open, put before every class, changes the scopes of conflicts, repetitions and
overriding conflicts and nothing else: the empty scope becomes the variant, and every other
scope has it in front.
-/
theorem detection_qualified
    {v : Text}
    (hone : v.segments = [v])
    (hclosed : Depth.outermost.after v = Depth.outermost) :
    (∀ classes : List Text,
      (∀ cls ∈ classes, cls.head? ≠ some ':') →
      detectConflicts (classes.map v.qualify) =
          (detectConflicts classes).map (StyleConflict.rescope v.qualifyScope) ∧
        detectDuplicates (classes.map v.qualify) =
          (detectDuplicates classes).map (DuplicateStyle.rescope v.qualifyScope)) ∧
    (∀ previous incoming : List Text,
      (∀ cls ∈ previous, cls.head? ≠ some ':') →
      (∀ cls ∈ incoming, cls.head? ≠ some ':') →
      overridingConflicts (previous.map v.qualify) (incoming.map v.qualify) =
        (overridingConflicts previous incoming).map (StyleConflict.rescope v.qualifyScope)) := by
  have hinjective := Text.qualifyScope_injective v
  constructor
  · intro classes hcolon
    have hkeyed := keyedClasses_map_qualify hone hclosed hcolon
    constructor
    · rw [detectConflicts_eq_reports, detectConflicts_eq_reports, hkeyed]
      exact reports_map_rekey hinjective (differing_rescope _) [] (keyedClasses classes)
    · rw [detectDuplicates_eq_reports, detectDuplicates_eq_reports, hkeyed]
      exact reports_map_rekey hinjective (repeating_rescope _) [] (keyedClasses classes)
  · intro previous incoming hprevious hincoming
    rw [overridingConflicts_eq_filterMap, overridingConflicts_eq_filterMap,
      keyedClasses_map_qualify hone hclosed hprevious,
      keyedClasses_map_qualify hone hclosed hincoming, List.filterMap_map, List.map_filterMap]
    congr 1
    funext keyed
    exact reportAfter?_map_rekey hinjective (differing_rescope _) (keyedClasses previous) keyed

/-- A variant with a colon in its brackets, over classes with and without variants. -/
theorem detection_qualified_bracketed :
    Text.segments "[&:hover]".toList = ["[&:hover]".toList] ∧
    detectConflicts
        ((Text.ofStrings ["p-4", "dark:p-2", "dark:p-6", "p-1"]).map
          (Text.qualify "[&:hover]".toList)) =
      [⟨"p-2".toList, "p-6".toList, "[&:hover]:dark".toList⟩,
        ⟨"p-4".toList, "p-1".toList, "[&:hover]".toList⟩] ∧
    overridingConflicts
        ((Text.ofStrings ["p-4"]).map (Text.qualify "[&:hover]".toList))
        ((Text.ofStrings ["p-1"]).map (Text.qualify "[&:hover]".toList)) =
      [⟨"p-4".toList, "p-1".toList, "[&:hover]".toList⟩] := by
  have hone : Text.segments "[&:hover]".toList = ["[&:hover]".toList] := by decide
  have hqualified := detection_qualified hone (by decide)
  refine ⟨hone, ?_, ?_⟩
  · rw [(hqualified.1 _ (by decide)).1]
    decide
  · rw [hqualified.2 _ _ (by decide) (by decide)]
    decide

/-- With a colon at the front the scopes of the two classes are equal only at the top. -/
example :
    (detectConflicts (Text.ofStrings ["p-4", ":p-2"])).length = 1 ∧
      detectConflicts (Text.ofStrings ["dark:p-4", "dark::p-2"]) = [] := by
  decide

end ClassLint
