import ClassLint.Proofs.Files.Walk
import ClassLint.Proofs.Source.Order
import Mathlib.Data.List.Basic
import Mathlib.Data.List.Flatten

/-!
# Selecting files by patterns

A pattern matches a file by its path below the root or by the whole path, and only whether some
pattern of a list matches decides about a file.  So the order of patterns and their repetition have
no influence, more patterns to include select more files, and more patterns to exclude fewer.  The
files that a walk reaches come in an order of their own, and what is found in a file depends on
that file alone.

**Results.**
* `Surroundings.exists_tests_of_isUsable`: the tests of usable patterns, and what they accept.
* `Surroundings.selectedPaths_eq_filter`: the selected paths among those that a walk reaches.
* `filter_occurrences_selectedPaths`: the occurrences of a scan, file by file.
* `selection_monotone`: scans with more or with fewer patterns, and with the same ones.
-/

namespace ClassLint

/-! ## Patterns -/

namespace Surroundings

/-- Whether a written pattern matches a path. -/
def matchesPath (s : Surroundings) (path pattern : Text) : Bool :=
  match s.pattern pattern with
  | .ok test => test path
  | .error _ => false

theorem exists_test_of_isUsable
    {s : Surroundings} {pattern : Text}
    (h : s.isUsable pattern = true) :
    ∃ test, s.pattern pattern = .ok test ∧ ∀ path, s.matchesPath path pattern = test path := by
  have hok := (Bool.and_eq_true_iff.1 h).1
  cases hpattern : s.pattern pattern with
  | error reason =>
      rw [hpattern] at hok
      cases hok
  | ok test => exact ⟨test, rfl, fun path => by simp only [matchesPath, hpattern]⟩

theorem exists_testsOfEach_of_isUsable
    {s : Surroundings} {patterns : List Text}
    (h : ∀ pattern ∈ patterns, s.isUsable pattern = true) :
    ∃ tests, s.testsOfEach patterns = .ok tests ∧
      ∀ path, tests.accepts path = patterns.any (s.matchesPath path) := by
  induction patterns with
  | nil => exact ⟨[], rfl, fun path => rfl⟩
  | cons pattern patterns ih =>
      obtain ⟨test, hpattern, hmatch⟩ := exists_test_of_isUsable (h pattern List.mem_cons_self)
      obtain ⟨tests, htests, hmatches⟩ := ih fun p hp => h p (List.mem_cons_of_mem pattern hp)
      refine ⟨test :: tests, ?_, fun path => ?_⟩
      · simp only [testsOfEach, hpattern, htests]
      · have hrest := hmatches path
        unfold PathTests.accepts at hrest ⊢
        rw [List.any_cons, List.any_cons, hmatch, hrest]

/-- Usable patterns have tests, which accept a path if one of the patterns matches it. -/
theorem exists_tests_of_isUsable
    {s : Surroundings}
    (hs : s.Lawful)
    {patterns : List Text}
    (h : ∀ pattern ∈ patterns, s.isUsable pattern = true) :
    ∃ tests, s.tests patterns = .ok tests ∧
      ∀ path, tests.accepts path = patterns.any (s.matchesPath path) := by
  obtain ⟨tests, htests, hmatches⟩ := exists_testsOfEach_of_isUsable h
  have hfault : s.patternsFault? patterns = none := hs.patternsFault?_eq_none patterns h
  exact ⟨tests, by simp only [Surroundings.tests, htests, hfault], hmatches⟩

/-! ## Files -/

/-- What is found in the file at a path: the class strings of its text, if it can be read. -/
def occurrences (s : Surroundings) (path : Text) : List ClassOccurrence :=
  match s.readText path with
  | .ok text => text.classStrings.map (ClassOccurrence.mk path)
  | .error _ => []

/-- Whether written patterns select a path. -/
def selects
    (s : Surroundings)
    (options : ScanOptions)
    (included excluded : List Text)
    (path : Text) :
    Bool :=
  let matched (pattern : Text) :=
    s.matchesPath (path.belowRoot options.root) pattern || s.matchesPath path pattern
  included.any matched && !excluded.any matched && !isLeftOut options path

/-- The paths that a walk reaches, each once, in the order of paths. -/
def reachedPaths (s : Surroundings) (options : ScanOptions) : List Text :=
  selectPaths (fun _ => true) (s.walk options.root options.useGitRules)

/-- The paths that written patterns select from a walk. -/
def selectedPaths
    (s : Surroundings)
    (options : ScanOptions)
    (included excluded : List Text) :
    List Text :=
  selectPaths (s.selects options included excluded) (s.walk options.root options.useGitRules)

theorem nodup_selectedPaths
    (s : Surroundings) (options : ScanOptions) (included excluded : List Text) :
    (s.selectedPaths options included excluded).Nodup :=
  (pairwise_selectPaths _ _).imp fun h => h.ne

theorem mem_selectedPaths_iff
    {s : Surroundings}
    (hs : s.Lawful)
    {options : ScanOptions} {included excluded : List Text} {path : Text} :
    path ∈ s.selectedPaths options included excluded ↔
      path ∈ s.walk options.root options.useGitRules ∧
        s.selects options included excluded path = true :=
  mem_selectPaths_iff (hs.path_eq_of_mem_walk options.root options.useGitRules)

/-- In lawful surroundings a path is selected or not whatever else is. -/
theorem selectedPaths_eq_filter
    {s : Surroundings}
    (hs : s.Lawful)
    (options : ScanOptions)
    (included excluded : List Text) :
    s.selectedPaths options included excluded =
      (s.reachedPaths options).filter (s.selects options included excluded) := by
  have hwalk := hs.path_eq_of_mem_walk options.root options.useGitRules
  exact selectPaths_eq_filter fun a ha b hb hnames => congrArg _ (hwalk a ha b hb hnames)

end Surroundings

theorem any_or
    {α : Type} (p q : α → Bool) (l : List α) :
    (l.any p || l.any q) = l.any fun a => p a || q a := by
  induction l with
  | nil => rfl
  | cons a l ih =>
      rw [List.any_cons, List.any_cons, List.any_cons, ← ih]
      cases p a <;> cases q a <;> simp

theorem isSelected_eq_selects
    {s : Surroundings} {options : ScanOptions} {included excluded : List Text}
    {includedTests excludedTests : PathTests}
    (hincluded : ∀ path, includedTests.accepts path = included.any (s.matchesPath path))
    (hexcluded : ∀ path, excludedTests.accepts path = excluded.any (s.matchesPath path)) :
    isSelected options includedTests excludedTests = s.selects options included excluded := by
  funext path
  simp only [isSelected, Surroundings.selects, hincluded, hexcluded, any_or]

theorem occurrences_scanFiles
    (s : Surroundings) (paths : List Text) :
    (scanFiles s paths).occurrences = paths.flatMap s.occurrences := by
  unfold scanFiles
  induction paths with
  | nil => rfl
  | cons path paths ih =>
      rw [List.map_cons, List.flatMap_cons, Surroundings.occurrences, ← ih]
      cases s.readText path with
      | ok text => rfl
      | error e => rfl

/-- A scan with usable patterns succeeds, and it is determined by which paths they select. -/
theorem scanPatterns_of_isUsable
    {s : Surroundings}
    (hs : s.Lawful)
    (options : ScanOptions)
    {included excluded : List Text}
    (hne : included ≠ [])
    (husable : ∀ pattern ∈ included ++ excluded, s.isUsable pattern = true) :
    scanPatterns s options included excluded =
      .ok (scanFiles s (s.selectedPaths options included excluded)) := by
  obtain ⟨hincludedUsable, hexcludedUsable⟩ := List.forall_mem_append.1 husable
  obtain ⟨includedTests, hincluded, hincludes⟩ :=
    Surroundings.exists_tests_of_isUsable hs hincludedUsable
  obtain ⟨excludedTests, hexcluded, hexcludes⟩ :=
    Surroundings.exists_tests_of_isUsable hs hexcludedUsable
  have hempty : included.isEmpty = false := List.isEmpty_eq_false_iff.2 hne
  rw [Surroundings.selectedPaths, ← isSelected_eq_selects hincludes hexcludes]
  simp only [scanPatterns, hempty, hincluded, hexcluded]
  rfl

/-! ## Comparing scans -/

theorem any_eq_of_mem_iff
    {patterns patterns' : List Text}
    (h : ∀ pattern, pattern ∈ patterns' ↔ pattern ∈ patterns)
    (p : Text → Bool) :
    patterns'.any p = patterns.any p := by
  rw [Bool.eq_iff_iff]
  simp only [List.any_eq_true, h]

/-- More patterns to include and fewer to exclude select every path that was selected. -/
theorem selects_of_subset
    {s : Surroundings} {options : ScanOptions}
    {included included' excluded excluded' : List Text}
    (hincluded : included ⊆ included')
    (hexcluded : excluded' ⊆ excluded)
    {path : Text}
    (h : s.selects options included excluded path = true) :
    s.selects options included' excluded' path = true := by
  simp only [Surroundings.selects, Bool.and_eq_true, Bool.not_eq_true', List.any_eq_true,
    List.any_eq_false] at h ⊢
  obtain ⟨⟨⟨pattern, hmem, hmatch⟩, hnone⟩, hkept⟩ := h
  exact ⟨⟨⟨pattern, hincluded hmem, hmatch⟩, fun p hp => hnone p (hexcluded hp)⟩, hkept⟩

theorem occurrences_sublist_of_subset
    {s : Surroundings}
    (hs : s.Lawful)
    (options : ScanOptions)
    {included included' excluded excluded' : List Text}
    (hincluded : included ⊆ included')
    (hexcluded : excluded' ⊆ excluded) :
    (scanFiles s (s.selectedPaths options included excluded)).occurrences.Sublist
      (scanFiles s (s.selectedPaths options included' excluded')).occurrences := by
  rw [occurrences_scanFiles, occurrences_scanFiles, Surroundings.selectedPaths_eq_filter hs,
    Surroundings.selectedPaths_eq_filter hs]
  refine List.Sublist.flatMap ?_ _
  exact List.monotone_filter_right _ fun path => selects_of_subset hincluded hexcluded

theorem Surroundings.filter_occurrences
    (s : Surroundings) (path other : Text) :
    (s.occurrences path).filter (fun o => o.path == other) =
      if path = other then s.occurrences other else [] := by
  have hpath : ∀ o ∈ s.occurrences path, o.path = path := by
    intro o ho
    unfold occurrences at ho
    split at ho
    · obtain ⟨found, -, rfl⟩ := List.mem_map.1 ho
      rfl
    · cases ho
  split
  · next hsame =>
      rw [← hsame]
      exact List.filter_eq_self.2 fun o ho => beq_iff_eq.2 (hpath o ho)
  · next hother =>
      refine List.filter_eq_nil_iff.2 fun o ho => ?_
      rw [hpath o ho, beq_iff_eq]
      exact hother

/-- Among different things one of them occurs once at most. -/
theorem flatMap_if_eq
    {α β : Type} [DecidableEq α] {l : List α}
    (hl : l.Nodup)
    (a : α) (found : List β) :
    (l.flatMap fun b => if b = a then found else []) = if a ∈ l then found else [] := by
  induction l with
  | nil => rfl
  | cons b l ih =>
      obtain ⟨hb, hrest⟩ := List.nodup_cons.1 hl
      rw [List.flatMap_cons, ih hrest]
      by_cases hba : b = a
      · obtain rfl := hba
        rw [if_pos rfl, if_neg hb, List.append_nil, if_pos List.mem_cons_self]
      · have hmem : a ∈ b :: l ↔ a ∈ l := by
          rw [List.mem_cons, or_iff_right (Ne.symm hba)]
        simp only [if_neg hba, List.nil_append, hmem]

/-- The occurrences with a path are those that are found there, if the path is selected. -/
theorem filter_occurrences_selectedPaths
    {s : Surroundings}
    (hs : s.Lawful)
    (options : ScanOptions)
    (included excluded : List Text)
    {path : Text}
    (hpath : path ∈ s.walk options.root options.useGitRules) :
    (scanFiles s (s.selectedPaths options included excluded)).occurrences.filter
        (fun o => o.path == path) =
      if s.selects options included excluded path then s.occurrences path else [] := by
  have hmem : path ∈ s.selectedPaths options included excluded ↔
      s.selects options included excluded path = true := by
    rw [Surroundings.mem_selectedPaths_iff hs, and_iff_right hpath]
  rw [occurrences_scanFiles, List.filter_flatMap]
  simp only [s.filter_occurrences, flatMap_if_eq (s.nodup_selectedPaths _ _ _), hmem]

/--
**Patterns select files independently of each other.**  With patterns to include, all patterns
being usable, a scan in lawful surroundings succeeds.  Lists with the same patterns, in any order
and any number of times, give the same result.  Further patterns to include take no occurrence
away, and further patterns to exclude add none; the occurrences that both scans have are in the
same order.  Of a file that the walk reaches the result has exactly the class strings of its text
if the patterns select it, and none otherwise, whatever else they select.
-/
theorem selection_monotone
    {s : Surroundings}
    (hs : s.Lawful)
    (options : ScanOptions)
    {included excluded : List Text}
    (hne : included ≠ [])
    (husable : ∀ pattern ∈ included ++ excluded, s.isUsable pattern = true) :
    ∃ result, scanPatterns s options included excluded = .ok result ∧
      (∀ included' excluded',
        (∀ pattern, pattern ∈ included' ↔ pattern ∈ included) →
        (∀ pattern, pattern ∈ excluded' ↔ pattern ∈ excluded) →
        scanPatterns s options included' excluded' = .ok result) ∧
      (∀ included', included ⊆ included' → (∀ pattern ∈ included', s.isUsable pattern = true) →
        ∃ larger, scanPatterns s options included' excluded = .ok larger ∧
          result.occurrences.Sublist larger.occurrences) ∧
      (∀ excluded', excluded ⊆ excluded' → (∀ pattern ∈ excluded', s.isUsable pattern = true) →
        ∃ smaller, scanPatterns s options included excluded' = .ok smaller ∧
          smaller.occurrences.Sublist result.occurrences) ∧
      ∀ path ∈ s.walk options.root options.useGitRules,
        result.occurrences.filter (fun o => o.path == path) =
          if s.selects options included excluded path then s.occurrences path else [] := by
  obtain ⟨hincludedUsable, hexcludedUsable⟩ := List.forall_mem_append.1 husable
  refine ⟨_, scanPatterns_of_isUsable hs options hne husable, ?_, ?_, ?_, ?_⟩
  · intro included' excluded' hincluded hexcluded
    have hne' : included' ≠ [] := by
      obtain ⟨pattern, hmem⟩ := List.exists_mem_of_ne_nil included hne
      exact List.ne_nil_of_mem ((hincluded pattern).2 hmem)
    have husable' : ∀ pattern ∈ included' ++ excluded', s.isUsable pattern = true :=
      List.forall_mem_append.2
        ⟨fun p hp => hincludedUsable p ((hincluded p).1 hp),
          fun p hp => hexcludedUsable p ((hexcluded p).1 hp)⟩
    have hselects :
        s.selects options included' excluded' = s.selects options included excluded := by
      funext path
      simp only [Surroundings.selects, any_eq_of_mem_iff hincluded, any_eq_of_mem_iff hexcluded]
    rw [scanPatterns_of_isUsable hs options hne' husable', Surroundings.selectedPaths, hselects,
      Surroundings.selectedPaths]
  · intro included' hsubset hincludedUsable'
    refine ⟨_, scanPatterns_of_isUsable hs options ?_
      (List.forall_mem_append.2 ⟨hincludedUsable', hexcludedUsable⟩), ?_⟩
    · exact fun hnil => hne (List.subset_nil.1 (hnil ▸ hsubset))
    · exact occurrences_sublist_of_subset hs options hsubset (List.Subset.refl excluded)
  · intro excluded' hsubset hexcludedUsable'
    refine ⟨_, scanPatterns_of_isUsable hs options hne
      (List.forall_mem_append.2 ⟨hincludedUsable, hexcludedUsable'⟩), ?_⟩
    exact occurrences_sublist_of_subset hs options (List.Subset.refl included) hsubset
  · intro path hpath
    exact filter_occurrences_selectedPaths hs options included excluded hpath

/-- Two files, one of which is excluded although two patterns include it. -/
theorem selection_monotone_twoFiles :
    ∃ result, scanPatterns twoFiles ⟨".".toList, false, false⟩ (Text.ofStrings ["a", "**"])
        (Text.ofStrings ["b"]) = .ok result ∧
      scanPatterns twoFiles ⟨".".toList, false, false⟩ (Text.ofStrings ["**", "a", "**"])
        (Text.ofStrings ["b", "b"]) = .ok result ∧
      (∃ larger, scanPatterns twoFiles ⟨".".toList, false, false⟩ (Text.ofStrings ["*", "a", "**"])
          (Text.ofStrings ["b"]) = .ok larger ∧
        result.occurrences.Sublist larger.occurrences) ∧
      (∃ smaller, scanPatterns twoFiles ⟨".".toList, false, false⟩ (Text.ofStrings ["a", "**"])
          (Text.ofStrings ["*", "b"]) = .ok smaller ∧
        smaller.occurrences.Sublist result.occurrences) ∧
      result.occurrences.filter (fun o => o.path == "./a".toList) =
        twoFiles.surroundings.occurrences "./a".toList ∧
      result.occurrences.filter (fun o => o.path == "./b".toList) = [] := by
  have husable : ∀ pattern ∈ Text.ofStrings ["a", "**"] ++ Text.ofStrings ["b"],
      twoFiles.surroundings.isUsable pattern = true := by
    decide +kernel
  have hincluded : ∀ pattern ∈ Text.ofStrings ["*", "a", "**"],
      twoFiles.surroundings.isUsable pattern = true := by
    decide +kernel
  have hexcluded : ∀ pattern ∈ Text.ofStrings ["*", "b"],
      twoFiles.surroundings.isUsable pattern = true := by
    decide +kernel
  have hkept : twoFiles.surroundings.selects ⟨".".toList, false, false⟩
      (Text.ofStrings ["a", "**"]) (Text.ofStrings ["b"]) "./a".toList = true := by
    decide +kernel
  have hleftOut : twoFiles.surroundings.selects ⟨".".toList, false, false⟩
      (Text.ofStrings ["a", "**"]) (Text.ofStrings ["b"]) "./b".toList = false := by
    decide +kernel
  have hwalk : twoFiles.surroundings.walk ".".toList false = ["./a".toList, "./b".toList] :=
    walk_twoFiles
  obtain ⟨result, hscan, hsame, hlarger, hsmaller, hfiles⟩ :=
    selection_monotone twoFiles.lawful ⟨".".toList, false, false⟩ (by decide) husable
  have hfirst := hfiles "./a".toList (by rw [hwalk]; exact List.mem_cons_self)
  have hsecond := hfiles "./b".toList (by rw [hwalk]; simp)
  rw [if_pos hkept] at hfirst
  rw [hleftOut] at hsecond
  refine ⟨result, hscan, ?_, hlarger _ (by decide) hincluded, hsmaller _ (by decide) hexcluded,
    hfirst, hsecond⟩
  exact hsame _ _ (fun pattern => by simp [Text.ofStrings, or_comm])
    (fun pattern => by simp [Text.ofStrings])

end ClassLint
