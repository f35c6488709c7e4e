import ClassLint.Files.Scan
import ClassLint.Proofs.Sorting

/-!
# Selected paths

Of the paths that a walk yields the kept ones are taken, each when its names are met for the first
time, and sorted by their names.  What is left is strictly increasing whatever the walk yields.

Where keeping a path is a matter of its names, it makes no difference whether paths are kept before
or after repetitions are dropped and the others are sorted.

**Results.**
* `pairwise_selectPaths`: selected paths are strictly increasing.
* `selectPaths_eq_filter`: selecting, dropping repetitions and sorting commute.
* `mem_selectPaths_iff`: which paths are selected from a walk without different spellings.
-/

namespace ClassLint

namespace Text

/-- The strict order of paths by their names. -/
def IsPathBefore (a b : Text) : Prop :=
  a.pathNames < b.pathNames

theorem IsPathBefore.trans
    (a b c : Text)
    (hab : a.IsPathBefore b)
    (hbc : b.IsPathBefore c) :
    a.IsPathBefore c := by
  exact List.lt_trans hab hbc

theorem IsPathBefore.ne
    {a b : Text}
    (h : a.IsPathBefore b) :
    a ≠ b := by
  rintro rfl
  exact List.lt_irrefl _ h

theorem pathNotAfter_iff
    {a b : Text} :
    a.pathNotAfter b = true ↔ ¬ b.IsPathBefore a := by
  simp [pathNotAfter, IsPathBefore]

theorem isPathBefore_of_pathNotAfter
    {a b : Text}
    (h : a.pathNotAfter b = true)
    (hne : a.pathNames ≠ b.pathNames) :
    a.IsPathBefore b := by
  refine Classical.byContradiction fun hab => hne ?_
  exact Std.Trichotomous.trichotomous (r := (· < ·)) _ _ hab (pathNotAfter_iff.1 h)

theorem pathNotAfter_trans
    (a b c : Text)
    (hab : a.pathNotAfter b = true)
    (hbc : b.pathNotAfter c = true) :
    a.pathNotAfter c = true := by
  rw [pathNotAfter_iff] at hbc ⊢
  intro hca
  by_cases hsame : a.pathNames = b.pathNames
  · unfold IsPathBefore at hbc hca
    rw [hsame] at hca
    exact hbc hca
  · exact hbc (hca.trans _ _ _ (isPathBefore_of_pathNotAfter hab hsame))

theorem pathNotAfter_total
    (a b : Text) :
    (a.pathNotAfter b || b.pathNotAfter a) = true := by
  rw [Bool.or_eq_true, pathNotAfter_iff, pathNotAfter_iff]
  by_cases h : b.IsPathBefore a
  · exact Or.inr (List.lt_asymm h)
  · exact Or.inl h

end Text

/-! ## Paths met for the first time -/

theorem unseenPaths_sublist
    (seen : List (List Text)) (paths : List Text) :
    (unseenPaths seen paths).Sublist paths := by
  fun_induction unseenPaths seen paths with
  | case1 => exact List.Sublist.refl []
  | case2 seen path paths names hseen ih => exact ih.cons path
  | case3 seen path paths names hseen ih => exact ih.cons_cons path

theorem pathNames_not_mem_of_mem_unseenPaths
    {seen : List (List Text)} {paths : List Text} {path : Text}
    (h : path ∈ unseenPaths seen paths) :
    path.pathNames ∉ seen := by
  fun_induction unseenPaths seen paths with
  | case1 => cases h
  | case2 seen first paths names hseen ih => exact ih h
  | case3 seen first paths names hseen ih =>
      rcases List.mem_cons.1 h with rfl | h
      · simpa [names] using hseen
      · exact fun hmem => ih h (List.mem_cons_of_mem _ hmem)

theorem pairwise_unseenPaths
    (seen : List (List Text)) (paths : List Text) :
    (unseenPaths seen paths).Pairwise fun a b => a.pathNames ≠ b.pathNames := by
  fun_induction unseenPaths seen paths with
  | case1 => exact List.Pairwise.nil
  | case2 seen path paths names hseen ih => exact ih
  | case3 seen path paths names hseen ih =>
      refine List.pairwise_cons.2 ⟨?_, ih⟩
      intro other hother hsame
      apply pathNames_not_mem_of_mem_unseenPaths hother
      rw [← hsame]
      exact List.mem_cons_self

/-- Of every path that is dropped the names were met before. -/
theorem exists_mem_unseenPaths
    {seen : List (List Text)} {paths : List Text} {path : Text}
    (h : path ∈ paths)
    (hnew : path.pathNames ∉ seen) :
    ∃ other ∈ unseenPaths seen paths, other.pathNames = path.pathNames := by
  fun_induction unseenPaths seen paths with
  | case1 => cases h
  | case2 seen first paths names hseen ih =>
      rcases List.mem_cons.1 h with rfl | h
      · exact absurd (List.contains_iff_mem.1 hseen) hnew
      · exact ih h hnew
  | case3 seen first paths names hseen ih =>
      by_cases hsame : first.pathNames = path.pathNames
      · exact ⟨first, List.mem_cons_self, hsame⟩
      · have hrest : path ∈ paths := by
          rcases List.mem_cons.1 h with rfl | h
          · exact absurd rfl hsame
          · exact h
        have hnew' : path.pathNames ∉ names :: seen := by
          simp only [List.mem_cons, not_or]
          exact ⟨Ne.symm hsame, hnew⟩
        obtain ⟨other, hother, hnames⟩ := ih hrest hnew'
        exact ⟨other, List.mem_cons_of_mem first hother, hnames⟩

/-- Keeping paths before or after the repetitions are dropped makes no difference, if keeping goes
by the names.  What has been seen may differ in names that are not kept. -/
theorem unseenPaths_filter
    {keep : Text → Bool} {paths : List Text} {seen seen' : List (List Text)}
    (hkeep : ∀ a ∈ paths, ∀ b ∈ paths, a.pathNames = b.pathNames → keep a = keep b)
    (hseen : ∀ a ∈ paths, keep a = true → (a.pathNames ∈ seen ↔ a.pathNames ∈ seen')) :
    unseenPaths seen (paths.filter keep) = (unseenPaths seen' paths).filter keep := by
  induction paths generalizing seen seen' with
  | nil => rfl
  | cons path paths ih =>
      have hkeepRest : ∀ a ∈ paths, ∀ b ∈ paths, a.pathNames = b.pathNames → keep a = keep b :=
        fun a ha b hb => hkeep a (List.mem_cons_of_mem path ha) b (List.mem_cons_of_mem path hb)
      have hseenRest :
          ∀ a ∈ paths, keep a = true → (a.pathNames ∈ seen ↔ a.pathNames ∈ seen') :=
        fun a ha => hseen a (List.mem_cons_of_mem path ha)
      simp only [unseenPaths, List.contains_iff_mem]
      cases hpath : keep path with
      | true =>
          have hsame := hseen path List.mem_cons_self hpath
          rw [List.filter_cons_of_pos hpath]
          simp only [unseenPaths, List.contains_iff_mem, hsame]
          split
          · exact ih hkeepRest hseenRest
          · rw [List.filter_cons_of_pos hpath, ih hkeepRest]
            intro a ha hkept
            simp only [List.mem_cons, hseenRest a ha hkept]
      | false =>
          rw [List.filter_cons_of_neg (by simp [hpath])]
          split
          · exact ih hkeepRest hseenRest
          · rw [List.filter_cons_of_neg (by simp [hpath])]
            refine ih hkeepRest fun a ha hkept => ?_
            -- A kept path has other names than one that is not kept.
            have hne : a.pathNames ≠ path.pathNames := by
              intro hnames
              rw [hkeep a (List.mem_cons_of_mem path ha) path List.mem_cons_self hnames, hpath]
                at hkept
              cases hkept
            simp only [List.mem_cons, hne, false_or, hseenRest a ha hkept]

/-! ## Selection -/

theorem mem_of_mem_selectPaths
    {keep : Text → Bool} {walked : List Text} {path : Text}
    (h : path ∈ selectPaths keep walked) :
    path ∈ walked ∧ keep path = true := by
  have hfilter := (unseenPaths_sublist [] (walked.filter keep)).subset (List.mem_mergeSort.1 h)
  exact List.mem_filter.1 hfilter

theorem pairwise_selectPaths
    (keep : Text → Bool) (walked : List Text) :
    (selectPaths keep walked).Pairwise Text.IsPathBefore := by
  have hsorted : (selectPaths keep walked).Pairwise fun a b => a.pathNotAfter b = true :=
    List.pairwise_mergeSort Text.pathNotAfter_trans Text.pathNotAfter_total _
  have hdistinct : (selectPaths keep walked).Pairwise fun a b => a.pathNames ≠ b.pathNames :=
    (List.mergeSort_perm _ _).symm.pairwise (pairwise_unseenPaths [] _) fun h => h.symm
  refine (hsorted.and hdistinct).imp ?_
  rintro a b ⟨hab, hne⟩
  exact Text.isPathBefore_of_pathNotAfter hab hne

/-- Selecting, dropping repetitions and sorting commute, if keeping a path goes by its names. -/
theorem selectPaths_eq_filter
    {keep : Text → Bool} {walked : List Text}
    (hkeep : ∀ a ∈ walked, ∀ b ∈ walked, a.pathNames = b.pathNames → keep a = keep b) :
    selectPaths keep walked = (selectPaths (fun _ => true) walked).filter keep := by
  have hall : walked.filter (fun _ => true) = walked := List.filter_eq_self.2 fun _ _ => rfl
  have hunseen : unseenPaths [] (walked.filter keep) = (unseenPaths [] walked).filter keep :=
    unseenPaths_filter hkeep fun _ _ _ => Iff.rfl
  refine eq_of_pairwise_of_mem_iff (fun _ _ => List.lt_asymm) (pairwise_selectPaths keep walked)
    ((pairwise_selectPaths _ walked).filter keep) fun path => ?_
  simp only [selectPaths, List.mem_mergeSort, hunseen, hall, List.mem_filter]

/-- From a walk that spells no path in two ways all kept paths are selected. -/
theorem mem_selectPaths_iff
    {keep : Text → Bool} {walked : List Text} {path : Text}
    (hwalked : ∀ a ∈ walked, ∀ b ∈ walked, a.pathNames = b.pathNames → a = b) :
    path ∈ selectPaths keep walked ↔ path ∈ walked ∧ keep path = true := by
  refine ⟨mem_of_mem_selectPaths, fun h => ?_⟩
  obtain ⟨other, hother, hnames⟩ :=
    exists_mem_unseenPaths (List.mem_filter.2 h) (List.not_mem_nil (a := path.pathNames))
  have hmem := (unseenPaths_sublist [] _).subset hother
  obtain rfl := hwalked other (List.mem_filter.1 hmem).1 path h.1 hnames
  exact List.mem_mergeSort.2 hother

end ClassLint
