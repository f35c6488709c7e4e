import ClassLint.Proofs.Conflict.History
import Mathlib.Data.Finset.Card
import Mathlib.Order.Bounds.Defs

/-!
# Conflicts and repetitions by index

The anchor of a key is the first index at which a class has that key.  A class conflicts
with the class at its anchor or repeats it, and this determines what both detectors
report, without any table.

**Results.**
* `lookup_keyedClasses_take`: in the history of a class, its key leads to the anchor, or
  to nothing when the class is the anchor.
* `reports_eq_filterMap_range`: reports listed by index.
* `length_reports_add_card`: each grouped class is the first of its key or is reported.
-/

namespace ClassLint

/-- The key and the base of the class at an index. -/
def keyedAt? (classes : List Text) (i : Nat) : Option (ConflictKey × Text) :=
  classes[i]?.bind ConflictKey.ofClass?

/-- Whether the class has the key. -/
def hasKey (key : ConflictKey) (cls : Text) : Bool :=
  (ConflictKey.ofClass? cls).any fun keyed => keyed.1 == key

/-- The first index at which a class has the key. -/
def anchor? (classes : List Text) (key : ConflictKey) : Option Nat :=
  classes.findIdx? (hasKey key)

/-- The base of the class at the anchor of the key. -/
def anchorBase? (classes : List Text) (key : ConflictKey) : Option Text :=
  (anchor? classes key).bind fun a => (keyedAt? classes a).map Prod.snd

/-- The conflict of the class at an index: its base is not the one at its anchor. -/
def conflictAt? (classes : List Text) (i : Nat) : Option StyleConflict :=
  (keyedAt? classes i).bind fun (key, base) =>
    (anchorBase? classes key).bind fun first =>
      if first ≠ base then some ⟨first, base, key.scope⟩ else none

/-- The repetition at an index: the base is that of an anchor further to the front. -/
def duplicateAt? (classes : List Text) (i : Nat) : Option DuplicateStyle :=
  (keyedAt? classes i).bind fun (key, base) =>
    (anchor? classes key).bind fun a =>
      (anchorBase? classes key).bind fun first =>
        if a < i ∧ first = base then some ⟨base, key.scope⟩ else none

@[simp] theorem keyedAt?_cons_zero
    (cls : Text) (classes : List Text) :
    keyedAt? (cls :: classes) 0 = ConflictKey.ofClass? cls :=
  rfl

@[simp] theorem keyedAt?_cons_succ
    (cls : Text) (classes : List Text) (i : Nat) :
    keyedAt? (cls :: classes) (i + 1) = keyedAt? classes i := by
  simp [keyedAt?]

theorem keyedAt?_take
    {classes : List Text} {i j : Nat}
    (h : j < i) :
    keyedAt? (classes.take i) j = keyedAt? classes j := by
  simp [keyedAt?, h]

theorem hasKey_eq_true_iff
    {key : ConflictKey} {cls : Text} :
    hasKey key cls = true ↔ ∃ base, ConflictKey.ofClass? cls = some (key, base) := by
  unfold hasKey
  cases h : ConflictKey.ofClass? cls with
  | none => simp
  | some keyed =>
      obtain ⟨other, base⟩ := keyed
      simp

theorem anchor?_eq_some_iff
    {classes : List Text} {key : ConflictKey} {a : Nat} :
    anchor? classes key = some a ↔
      (∃ first, keyedAt? classes a = some (key, first)) ∧
      ∀ j < a, ∀ base, keyedAt? classes j ≠ some (key, base) := by
  unfold anchor?
  rw [List.findIdx?_eq_some_iff_getElem]
  constructor
  · rintro ⟨hlt, hkey, hbefore⟩
    obtain ⟨first, hfirst⟩ := hasKey_eq_true_iff.1 hkey
    refine ⟨⟨first, by simpa [keyedAt?, hlt] using hfirst⟩, ?_⟩
    intro j hj base hbase
    have hjlt : j < classes.length := by omega
    apply hbefore j hj
    apply hasKey_eq_true_iff.2
    exact ⟨base, by simpa [keyedAt?, hjlt] using hbase⟩
  · rintro ⟨⟨first, hfirst⟩, hbefore⟩
    have hlt : a < classes.length := by
      by_contra hge
      simp [keyedAt?, List.getElem?_eq_none (Nat.le_of_not_lt hge)] at hfirst
    refine ⟨hlt, hasKey_eq_true_iff.2 ⟨first, by simpa [keyedAt?, hlt] using hfirst⟩, ?_⟩
    intro j hj hkey
    have hjlt : j < classes.length := by omega
    obtain ⟨base, hbase⟩ := hasKey_eq_true_iff.1 hkey
    exact hbefore j hj base (by simpa [keyedAt?, hjlt] using hbase)

/-- A class with a key has an anchor, at its own index or before it. -/
theorem exists_anchor
    {classes : List Text} {i : Nat} {key : ConflictKey} {base : Text}
    (h : keyedAt? classes i = some (key, base)) :
    ∃ a first, anchor? classes key = some a ∧ a ≤ i ∧
      keyedAt? classes a = some (key, first) := by
  cases ha : anchor? classes key with
  | none =>
      exfalso
      have hall := List.findIdx?_eq_none_iff.1 ha
      obtain ⟨cls, hcls, hkeyed⟩ := Option.bind_eq_some_iff.1 h
      have hkey := hasKey_eq_true_iff.2 ⟨base, hkeyed⟩
      rw [hall cls (List.mem_of_getElem? hcls)] at hkey
      cases hkey
  | some a =>
      obtain ⟨⟨first, hfirst⟩, hbefore⟩ := anchor?_eq_some_iff.1 ha
      refine ⟨a, first, rfl, ?_, hfirst⟩
      by_contra hlt
      exact hbefore i (by omega) base h

theorem lookup_keyedClasses
    (classes : List Text) (key : ConflictKey) :
    (keyedClasses classes).lookup key = anchorBase? classes key := by
  induction classes with
  | nil => rfl
  | cons cls classes ih =>
      unfold anchorBase? anchor?
      rw [List.findIdx?_cons]
      cases hcls : ConflictKey.ofClass? cls with
      | none =>
          have hkey : hasKey key cls = false := by simp [hasKey, hcls]
          rw [keyedClasses_cons_of_eq_none _ hcls, ih, hkey]
          simp [anchorBase?, anchor?, Option.bind_map]
      | some keyed =>
          obtain ⟨other, base⟩ := keyed
          rw [keyedClasses_cons_of_eq_some _ hcls, List.lookup_cons]
          by_cases h : key = other
          · subst h
            have hkey : hasKey key cls = true := by simp [hasKey, hcls]
            simp [hkey, hcls]
          · have hkey : hasKey key cls = false := by simp [hasKey, hcls, Ne.symm h]
            have hne : (key == other) = false := by simpa using h
            rw [hkey, hne]
            simp [ih, anchorBase?, anchor?, Option.bind_map]

theorem anchorBase?_eq_some
    {classes : List Text} {key : ConflictKey} {a : Nat} {first : Text}
    (ha : anchor? classes key = some a)
    (hfirst : keyedAt? classes a = some (key, first)) :
    anchorBase? classes key = some first := by
  simp [anchorBase?, ha, hfirst]

theorem lookup_keyedClasses_take
    {classes : List Text} {key : ConflictKey} {a : Nat} {first : Text}
    (ha : anchor? classes key = some a)
    (hfirst : keyedAt? classes a = some (key, first))
    (i : Nat) :
    (keyedClasses (classes.take i)).lookup key = if a < i then some first else none := by
  have htake : anchor? (classes.take i) key = Option.guard (fun j => j < i) a := by
    unfold anchor? at ha ⊢
    rw [List.findIdx?_take, ha]
    rfl
  rw [lookup_keyedClasses]
  by_cases h : a < i
  · simp [anchorBase?, htake, h, keyedAt?_take h, hfirst]
  · simp [anchorBase?, htake, h]

theorem conflictAt?_eq_bind
    (classes : List Text) (i : Nat) :
    conflictAt? classes i =
      (keyedAt? classes i).bind
        (reportAfter? differing (keyedClasses (classes.take i))) := by
  unfold conflictAt?
  cases h : keyedAt? classes i with
  | none => rfl
  | some keyed =>
      obtain ⟨key, base⟩ := keyed
      obtain ⟨a, first, ha, hle, hfirst⟩ := exists_anchor h
      simp only [Option.bind_some, reportAfter?, anchorBase?_eq_some ha hfirst,
        lookup_keyedClasses_take ha hfirst]
      by_cases hlt : a < i
      · simp [hlt, differing]
      · -- The class is the anchor itself, so its base is the first one.
        have hai : a = i := by omega
        subst hai
        rw [h] at hfirst
        cases hfirst
        simp

theorem duplicateAt?_eq_bind
    (classes : List Text) (i : Nat) :
    duplicateAt? classes i =
      (keyedAt? classes i).bind
        (reportAfter? repeating (keyedClasses (classes.take i))) := by
  unfold duplicateAt?
  cases h : keyedAt? classes i with
  | none => rfl
  | some keyed =>
      obtain ⟨key, base⟩ := keyed
      obtain ⟨a, first, ha, -, hfirst⟩ := exists_anchor h
      simp only [Option.bind_some, reportAfter?, ha, anchorBase?_eq_some ha hfirst,
        lookup_keyedClasses_take ha hfirst]
      by_cases hlt : a < i
      · simp [hlt, repeating]
      · simp [hlt]

theorem reports_eq_filterMap_range
    {α : Type} (report : ConflictKey → Text → Text → Option α)
    (before : List (ConflictKey × Text)) (classes : List Text) :
    reports report before (keyedClasses classes) =
      (List.range classes.length).filterMap fun i =>
        (keyedAt? classes i).bind
          (reportAfter? report (before ++ keyedClasses (classes.take i))) := by
  induction classes generalizing before with
  | nil => rfl
  | cons cls classes ih =>
      rw [List.length_cons, List.range_succ_eq_map, List.filterMap_cons,
        List.filterMap_map]
      cases hcls : ConflictKey.ofClass? cls with
      | none =>
          rw [keyedClasses_cons_of_eq_none _ hcls, ih]
          simp [hcls, keyedClasses_cons_of_eq_none _ hcls]
      | some keyed =>
          obtain ⟨key, base⟩ := keyed
          rw [keyedClasses_cons_of_eq_some _ hcls, reports, ih]
          simp only [Function.comp_def, keyedAt?_cons_zero, keyedAt?_cons_succ, hcls,
            List.take_succ_cons, keyedClasses_cons_of_eq_some _ hcls, List.take_zero,
            keyedClasses_nil, List.append_nil, Option.bind_some, List.append_assoc,
            List.singleton_append]
          cases reportAfter? report before (key, base) <;> rfl

theorem detectConflicts_eq_filterMap_range
    (classes : List Text) :
    detectConflicts classes =
      (List.range classes.length).filterMap (conflictAt? classes) := by
  rw [detectConflicts_eq_reports, reports_eq_filterMap_range]
  simp only [List.nil_append, ← conflictAt?_eq_bind]

theorem detectDuplicates_eq_filterMap_range
    (classes : List Text) :
    detectDuplicates classes =
      (List.range classes.length).filterMap (duplicateAt? classes) := by
  rw [detectDuplicates_eq_reports, reports_eq_filterMap_range]
  simp only [List.nil_append, ← duplicateAt?_eq_bind]

theorem mem_keys_iff_isSome_lookup
    {before : List (ConflictKey × Text)} {key : ConflictKey} :
    key ∈ before.map Prod.fst ↔ (before.lookup key).isSome := by
  rw [List.lookup_isSome_iff, List.mem_map]
  constructor
  · rintro ⟨keyed, hmem, rfl⟩
    exact ⟨keyed, hmem, beq_self_eq_true _⟩
  · rintro ⟨keyed, hmem, hkey⟩
    exact ⟨keyed, hmem, (eq_of_beq hkey).symm⟩

theorem card_keys_sdiff_of_new
    {key : ConflictKey} {before : Finset ConflictKey}
    (h : key ∉ before)
    (rest : Finset ConflictKey) :
    (insert key rest \ before).card = (rest \ insert key before).card + 1 := by
  have hinsert :
      insert key (insert key rest \ insert key before) = insert key rest \ before :=
    Finset.sdiff_insert_insert_of_mem_of_notMem (Finset.mem_insert_self key rest) h
  rw [← hinsert, Finset.insert_sdiff_insert, Finset.card_insert_of_notMem (by simp)]

/-- A base either differs from the first base of its key or repeats it. -/
theorem isSome_differing_eq_not_repeating
    (key : ConflictKey) (first base : Text) :
    (differing key first base).isSome = !(repeating key first base).isSome := by
  unfold differing repeating
  split <;> rfl

theorem length_differing_add_repeating
    (key : ConflictKey) (first base : Text) :
    (differing key first base).toList.length + (repeating key first base).toList.length =
      1 := by
  unfold differing repeating
  split <;> rfl

/-- Each keyed base is the first of a key that the history lacks, or it is reported once. -/
theorem length_reports_add_card
    (before keyed : List (ConflictKey × Text)) :
    (reports differing before keyed).length + (reports repeating before keyed).length +
        ((keyed.map Prod.fst).toFinset \ (before.map Prod.fst).toFinset).card =
      keyed.length := by
  induction keyed generalizing before with
  | nil => simp [reports]
  | cons head rest ih =>
      obtain ⟨key, base⟩ := head
      have hrest := ih (before ++ [(key, base)])
      have hkeys :
          ((before ++ [(key, base)]).map Prod.fst).toFinset =
            insert key (before.map Prod.fst).toFinset := by
        ext other
        simp
      rw [hkeys] at hrest
      simp only [reports, reportAfter?, List.length_append, List.length_cons,
        List.map_cons, List.toFinset_cons]
      have hmem :
          key ∈ (before.map Prod.fst).toFinset ↔ (before.lookup key).isSome := by
        rw [List.mem_toFinset, mem_keys_iff_isSome_lookup]
      cases hlookup : before.lookup key with
      | none =>
          have hnew : key ∉ (before.map Prod.fst).toFinset := by
            rw [hmem, hlookup]
            simp
          rw [card_keys_sdiff_of_new hnew]
          simp only [Option.bind_none, Option.toList_none, List.length_nil]
          omega
      | some first =>
          have hold : key ∈ (before.map Prod.fst).toFinset := by
            rw [hmem, hlookup]
            rfl
          have hone := length_differing_add_repeating key first base
          rw [Finset.insert_eq_of_mem hold] at hrest
          rw [Finset.insert_sdiff_of_mem _ hold]
          simp only [Option.bind_some]
          omega

/--
**Detection by anchors.**  Conflicts and repetitions, in order of index, are those of a
class with the class at its anchor, which is the least index with its key.  A grouped
class that is not its own anchor has exactly one of the two, and an anchor has neither,
so the reports of both lists and the keys together count the grouped classes.
-/
theorem detection_anchored
    (classes : List Text) :
    detectConflicts classes =
        (List.range classes.length).filterMap (conflictAt? classes) ∧
    detectDuplicates classes =
        (List.range classes.length).filterMap (duplicateAt? classes) ∧
    (∀ i key base, keyedAt? classes i = some (key, base) →
      ∃ a, anchor? classes key = some a ∧
        IsLeast {j | ∃ first, keyedAt? classes j = some (key, first)} a ∧
        (a = i → conflictAt? classes i = none ∧ duplicateAt? classes i = none) ∧
        (a ≠ i → (conflictAt? classes i).isSome = !(duplicateAt? classes i).isSome)) ∧
    (detectConflicts classes).length + (detectDuplicates classes).length +
        ((keyedClasses classes).map Prod.fst).toFinset.card =
      (keyedClasses classes).length := by
  refine ⟨detectConflicts_eq_filterMap_range classes,
    detectDuplicates_eq_filterMap_range classes, ?_, ?_⟩
  · intro i key base h
    obtain ⟨a, first, ha, hle, hfirst⟩ := exists_anchor h
    have hbefore := (anchor?_eq_some_iff.1 ha).2
    refine ⟨a, ha, ⟨⟨first, hfirst⟩, ?_⟩, ?_, ?_⟩
    · rintro j ⟨other, hj⟩
      by_contra hlt
      exact hbefore j (by omega) other hj
    · rintro rfl
      simp [conflictAt?_eq_bind, duplicateAt?_eq_bind, h, reportAfter?,
        lookup_keyedClasses_take ha hfirst]
    · intro hne
      have hlt : a < i := by omega
      simp only [conflictAt?_eq_bind, duplicateAt?_eq_bind, h, reportAfter?,
        lookup_keyedClasses_take ha hfirst, hlt, if_true, Option.bind_some]
      exact isSome_differing_eq_not_repeating key first base
  · rw [detectConflicts_eq_reports, detectDuplicates_eq_reports]
    simpa using length_reports_add_card [] (keyedClasses classes)

/-- The class comes back to the base of its anchor after a conflict with it. -/
theorem detection_anchored_return :
    keyedAt? (Text.ofStrings ["p-4", "flex", "p-2", "p-4"]) 3 =
        some (⟨[], .padding .all⟩, "p-4".toList) ∧
    anchor? (Text.ofStrings ["p-4", "flex", "p-2", "p-4"]) ⟨[], .padding .all⟩ = some 0 ∧
    (conflictAt? (Text.ofStrings ["p-4", "flex", "p-2", "p-4"]) 3).isSome =
      !(duplicateAt? (Text.ofStrings ["p-4", "flex", "p-2", "p-4"]) 3).isSome := by
  have h :
      keyedAt? (Text.ofStrings ["p-4", "flex", "p-2", "p-4"]) 3 =
        some (⟨[], .padding .all⟩, "p-4".toList) := by
    decide
  have hzero :
      anchor? (Text.ofStrings ["p-4", "flex", "p-2", "p-4"]) ⟨[], .padding .all⟩ =
        some 0 := by
    decide
  obtain ⟨a, ha, -, -, hone⟩ := (detection_anchored _).2.2.1 3 _ _ h
  have hne : a ≠ 3 := by
    rw [hzero] at ha
    cases ha
    decide
  exact ⟨h, hzero, hone hne⟩

end ClassLint
