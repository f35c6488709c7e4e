import ClassLint.Proofs.Conflict.Anchor
import ClassLint.Proofs.Sorting
import Mathlib

/-!
# Keys do not influence each other

A class is compared with the first class of its own key.  So the reports about the classes of one
key depend on these classes alone, in their order, and a list has no more reports than those of its
keys.  Classes of different keys may therefore change places, which can only reorder the reports.

For the proof every report is given the key that it is about.  Then the reports of one key can be
picked out, and they are the reports about the classes of this key.

**Results.**
* `filter_eq_of_places`: a rearrangement that keeps the order of some elements keeps their list.
* `ofKey_reports`: the reports of a key are those about its classes.
* `perm_reports_of_ofKey_eq`: lists with the same classes of each key have the same reports.
* `independent_keys`: both detectors under rearrangements, and without the classes of no group.
-/

namespace ClassLint

/-! ## Rearranged lists -/

/-- The elements of the second list are those of the first one, each at a new place. -/
structure Places {α : Type} (xs ys : List α) where
  place : Fin xs.length ≃ Fin ys.length
  get_place : ∀ i, ys[place i] = xs[i]

namespace Places

variable {α : Type} {xs ys : List α}

/-- The elements with the property stay in order. -/
def KeepsOrderOf (places : Places xs ys) (p : α → Bool) : Prop :=
  ∀ i j : Fin xs.length, i < j → p xs[i] = true → p xs[j] = true →
    places.place i < places.place j

/-- The places of the elements with the property, in order. -/
def placesOf (p : α → Bool) (xs : List α) : List (Fin xs.length) :=
  (List.finRange xs.length).filter fun i => p xs[i]

theorem mem_placesOf_iff
    {p : α → Bool} {i : Fin xs.length} :
    i ∈ placesOf p xs ↔ p xs[i] = true := by
  rw [placesOf, List.mem_filter]
  exact and_iff_right (List.mem_finRange i)

theorem pairwise_placesOf
    (p : α → Bool) (xs : List α) :
    (placesOf p xs).Pairwise (· < ·) :=
  (List.pairwise_lt_finRange xs.length).filter _

theorem map_placesOf
    (p : α → Bool) (xs : List α) :
    (placesOf p xs).map (fun i => xs[i]) = xs.filter p := by
  have hxs : (List.finRange xs.length).map (fun i => xs[i]) = xs := List.map_getElem_finRange xs
  have hfilter := List.filter_map (f := fun i : Fin xs.length => xs[i]) (p := p)
    (l := List.finRange xs.length)
  rw [hxs] at hfilter
  exact hfilter.symm

/-- Elements that stay in order take the places of such elements, in order. -/
theorem map_place_placesOf
    (places : Places xs ys) {p : α → Bool}
    (h : places.KeepsOrderOf p) :
    (placesOf p xs).map places.place = placesOf p ys := by
  have hincreasing : ((placesOf p xs).map places.place).Pairwise (· < ·) := by
    rw [List.pairwise_map]
    refine (pairwise_placesOf p xs).imp_of_mem ?_
    intro i j hi hj hij
    exact h i j hij (mem_placesOf_iff.1 hi) (mem_placesOf_iff.1 hj)
  have hmem (j : Fin ys.length) :
      j ∈ (placesOf p xs).map places.place ↔ j ∈ placesOf p ys := by
    rw [List.mem_map, mem_placesOf_iff]
    constructor
    · rintro ⟨i, hi, rfl⟩
      rw [places.get_place]
      exact mem_placesOf_iff.1 hi
    · intro hj
      obtain ⟨i, rfl⟩ := places.place.surjective j
      rw [places.get_place] at hj
      exact ⟨i, mem_placesOf_iff.2 hj, rfl⟩
  exact eq_of_pairwise_of_mem_iff (fun _ _ => lt_asymm) hincreasing (pairwise_placesOf p ys) hmem

/-- A rearrangement that keeps the order of some elements keeps their list. -/
theorem filter_eq_of_places
    (places : Places xs ys) {p : α → Bool}
    (h : places.KeepsOrderOf p) :
    xs.filter p = ys.filter p := by
  calc
    xs.filter p = (placesOf p xs).map (fun i => xs[i]) := (map_placesOf p xs).symm
    _ = (placesOf p xs).map (fun i => ys[places.place i]) := by simp only [places.get_place]
    _ = ((placesOf p xs).map places.place).map (fun j => ys[j]) := by
      rw [List.map_map, Function.comp_def]
    _ = (placesOf p ys).map (fun j => ys[j]) := by rw [map_place_placesOf places h]
    _ = ys.filter p := map_placesOf p ys

end Places

/-! ## The reports of a key -/

/-- What belongs to a key. -/
def ofKey {α : Type} (key : ConflictKey) (items : List (ConflictKey × α)) :
    List (ConflictKey × α) :=
  items.filter fun item => item.1 == key

section Reports

variable {α : Type}

theorem ofKey_append
    (key : ConflictKey) (xs ys : List (ConflictKey × α)) :
    ofKey key (xs ++ ys) = ofKey key xs ++ ofKey key ys :=
  List.filter_append xs ys

/-- What is looked up for a key belongs to it. -/
theorem lookup_ofKey
    (key : ConflictKey) (items : List (ConflictKey × α)) :
    (ofKey key items).lookup key = items.lookup key := by
  induction items with
  | nil => rfl
  | cons item items ih =>
      obtain ⟨other, value⟩ := item
      unfold ofKey at ih ⊢
      by_cases h : key = other
      · subst h
        simp
      · have hne : (key == other) = false := beq_eq_false_iff_ne.2 h
        have hne' : (other == key) = false := beq_eq_false_iff_ne.2 (Ne.symm h)
        simp only [List.filter_cons, hne', Bool.false_eq_true, if_false, List.lookup_cons, hne, ih]

/-- Lists with the same items of each key have the same items. -/
theorem perm_of_ofKey_eq
    [DecidableEq α]
    {xs ys : List (ConflictKey × α)}
    (h : ∀ key, ofKey key xs = ofKey key ys) :
    xs.Perm ys := by
  rw [List.perm_iff_count]
  intro item
  have hcount (zs : List (ConflictKey × α)) : (ofKey item.1 zs).count item = zs.count item :=
    List.count_filter (beq_self_eq_true item.1)
  rw [← hcount xs, ← hcount ys, h item.1]

variable (report : ConflictKey → Text → Text → Option α)

/-- The report together with the key that it is about. -/
def keyedReport (key : ConflictKey) (first base : Text) : Option (ConflictKey × α) :=
  (report key first base).map fun item => (key, item)

/-- A report about a base, given its key, is about that key. -/
theorem reportAfter?_keyedReport
    (before : List (ConflictKey × Text)) (keyed : ConflictKey × Text) :
    reportAfter? (keyedReport report) before keyed =
      (reportAfter? report before keyed).map fun item => (keyed.1, item) := by
  unfold reportAfter? keyedReport
  cases before.lookup keyed.1 <;> rfl

theorem map_snd_reports
    (before keyed : List (ConflictKey × Text)) :
    (reports (keyedReport report) before keyed).map Prod.snd = reports report before keyed := by
  induction keyed generalizing before with
  | nil => rfl
  | cons head rest ih =>
      rw [reports, reports, List.map_append, ih, reportAfter?_keyedReport]
      cases reportAfter? report before head <;> rfl

/-- The reports of a key are those about its bases among its bases. -/
theorem ofKey_reports
    (key : ConflictKey) (before keyed : List (ConflictKey × Text)) :
    ofKey key (reports (keyedReport report) before keyed) =
      reports (keyedReport report) (ofKey key before) (ofKey key keyed) := by
  induction keyed generalizing before with
  | nil => rfl
  | cons head rest ih =>
      obtain ⟨other, base⟩ := head
      rw [reports, ofKey_append, ih, ofKey_append, reportAfter?_keyedReport]
      by_cases h : other = key
      · subst h
        have hhead : ofKey other ((other, base) :: rest) = (other, base) :: ofKey other rest := by
          simp [ofKey]
        have hlast : ofKey other [(other, base)] = [(other, base)] := by simp [ofKey]
        rw [hhead, hlast, reports, reportAfter?_keyedReport, reportAfter?, reportAfter?,
          lookup_ofKey]
        cases (before.lookup other).bind fun first => report other first base <;> simp [ofKey]
      · have hhead : ofKey key ((other, base) :: rest) = ofKey key rest := by simp [ofKey, h]
        have hlast : ofKey key [(other, base)] = [] := by simp [ofKey, h]
        rw [hhead, hlast, List.append_nil]
        cases reportAfter? report before (other, base) <;> simp [ofKey, h]

/-- Lists with the same bases of each key have the same reports. -/
theorem perm_reports_of_ofKey_eq
    [DecidableEq α]
    {keyed keyed' : List (ConflictKey × Text)}
    (h : ∀ key, ofKey key keyed = ofKey key keyed') :
    (reports report [] keyed).Perm (reports report [] keyed') := by
  have hkeyed :
      (reports (keyedReport report) [] keyed).Perm (reports (keyedReport report) [] keyed') := by
    refine perm_of_ofKey_eq fun key => ?_
    rw [ofKey_reports, ofKey_reports, h key]
  rw [← map_snd_reports, ← map_snd_reports report [] keyed']
  exact hkeyed.map Prod.snd

end Reports

/-! ## Classes -/

/-- Whether the class has a conflict group. -/
def hasGroup (cls : Text) : Bool :=
  (ConflictGroup.ofBase? (ScopedClass.ofText cls).base).isSome

theorem isSome_ofClass?
    (cls : Text) :
    (ConflictKey.ofClass? cls).isSome = hasGroup cls :=
  Option.isSome_map

/-- Only the classes with a group are compared. -/
theorem keyedClasses_filter_hasGroup
    (classes : List Text) :
    keyedClasses (classes.filter hasGroup) = keyedClasses classes := by
  unfold keyedClasses
  rw [List.filterMap_filter]
  congr 1
  funext cls
  rw [← isSome_ofClass?]
  cases ConflictKey.ofClass? cls <;> rfl

/-- The bases of a key are those of its classes. -/
theorem ofKey_keyedClasses
    (key : ConflictKey) (classes : List Text) :
    ofKey key (keyedClasses classes) = keyedClasses (classes.filter (hasKey key)) := by
  unfold ofKey keyedClasses
  rw [List.filterMap_filter, List.filter_filterMap]
  congr 1
  funext cls
  unfold hasKey
  cases ConflictKey.ofClass? cls <;> simp [Option.filter]

/-- A rearrangement that keeps each key in order keeps the bases of each key. -/
theorem ofKey_keyedClasses_of_places
    {cs ds : List Text}
    (places : Places cs ds)
    (h : ∀ key, places.KeepsOrderOf (hasKey key))
    (key : ConflictKey) :
    ofKey key (keyedClasses cs) = ofKey key (keyedClasses ds) := by
  rw [ofKey_keyedClasses, ofKey_keyedClasses, places.filter_eq_of_places (h key)]

/--
**Independent keys do not influence each other.**  Classes may be rearranged as long as those of
one key stay in order: the same conflicts and the same repetitions are reported, though not in the
same order.  Classes without a conflict group may come and go anywhere, and nothing changes at all.
-/
theorem independent_keys
    (cs ds : List Text) :
    (∀ places : Places cs ds, (∀ key, places.KeepsOrderOf (hasKey key)) →
      (detectConflicts cs).Perm (detectConflicts ds) ∧
      (detectDuplicates cs).Perm (detectDuplicates ds)) ∧
    (cs.filter hasGroup = ds.filter hasGroup →
      detectConflicts cs = detectConflicts ds ∧ detectDuplicates cs = detectDuplicates ds) := by
  simp only [detectConflicts_eq_reports, detectDuplicates_eq_reports]
  constructor
  · intro places h
    have hkeys := ofKey_keyedClasses_of_places places h
    exact ⟨perm_reports_of_ofKey_eq _ hkeys, perm_reports_of_ofKey_eq _ hkeys⟩
  · intro h
    have hkeyed : keyedClasses cs = keyedClasses ds := by
      rw [← keyedClasses_filter_hasGroup cs, h, keyedClasses_filter_hasGroup]
    rw [hkeyed]
    exact ⟨rfl, rfl⟩

/-- Classes of one key in front of those of another. -/
def byKey : List Text :=
  Text.ofStrings ["p-4", "flex", "p-2", "dark:p-4", "dark:p-4"]

/-- The same classes mixed, with the one of no group at the end. -/
def interleaved : List Text :=
  Text.ofStrings ["dark:p-4", "p-4", "dark:p-4", "p-2", "flex"]

/-- The place of each class among the mixed ones. -/
def mixing : Fin 5 ≃ Fin 5 where
  toFun := ![1, 4, 3, 0, 2]
  invFun := ![3, 0, 4, 2, 1]
  left_inv i := by
    revert i
    decide
  right_inv i := by
    revert i
    decide

/-- The classes are the same at the places that the mixing gives. -/
def interleavedPlaces : Places byKey interleaved where
  place := mixing
  get_place := by decide

/-- A key with a conflict and one with a repetition, and a class without a group that goes. -/
theorem independent_keys_interleaved :
    (detectConflicts byKey).Perm (detectConflicts interleaved) ∧
      (detectDuplicates byKey).Perm (detectDuplicates interleaved) ∧
      detectConflicts interleaved = detectConflicts interleaved.dropLast := by
  have horder : ∀ i j : Fin byKey.length, i < j →
      (ConflictKey.ofClass? byKey[i]).map Prod.fst = (ConflictKey.ofClass? byKey[j]).map Prod.fst →
      interleavedPlaces.place i < interleavedPlaces.place j := by
    decide
  have hkeys (key : ConflictKey) : interleavedPlaces.KeepsOrderOf (hasKey key) := by
    intro i j hij hi hj
    obtain ⟨first, hfirst⟩ := hasKey_eq_true_iff.1 hi
    obtain ⟨second, hsecond⟩ := hasKey_eq_true_iff.1 hj
    refine horder i j hij ?_
    rw [hfirst, hsecond]
    rfl
  obtain ⟨hconflicts, hduplicates⟩ := (independent_keys byKey interleaved).1 interleavedPlaces hkeys
  have hgroupless : interleaved.filter hasGroup = interleaved.dropLast.filter hasGroup := by decide
  exact ⟨hconflicts, hduplicates, ((independent_keys _ _).2 hgroupless).1⟩

end ClassLint
