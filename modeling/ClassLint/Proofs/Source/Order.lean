import ClassLint.Proofs.Files.SelectedPaths
import ClassLint.Proofs.Source.Literals
import ClassLint.Run

/-!
# The order of class strings

The spans of class strings come from searches that overlap: an attribute may stand among
the arguments of a call, and calls nest.  A literal is determined by where it begins, so sorted
and without repetitions the spans have increasing beginnings, and later beginnings are later
positions.

A scan reads its files in order of their paths, compared name by name, and no path twice, whatever
the walk yields.

**Results.**
* `Text.pairwise_position_classStrings`: the positions in a text are strictly increasing.
* `occurrences_strictly_increasing`: the class strings of a scan are strictly increasing by path,
  line and column.
-/

namespace ClassLint

namespace Span

theorem before_iff
    {s t : Span} :
    s.before t = true ↔ s.start < t.start ∨ s.start = t.start ∧ s.stop ≤ t.stop := by
  simp [before]

theorem before_trans
    (s t u : Span)
    (hst : s.before t = true)
    (htu : t.before u = true) :
    s.before u = true := by
  rw [before_iff] at *
  omega

theorem before_total
    (s t : Span) :
    (s.before t || t.before s) = true := by
  rw [Bool.or_eq_true, before_iff, before_iff]
  omega

/-- Spans that are in order and not the same are strictly in order. -/
theorem strict_of_before
    (s t : Span)
    (h : s.before t = true)
    (apart : (s == t) = false) :
    s.start < t.start ∨ s.start = t.start ∧ s.stop < t.stop := by
  rcases before_iff.1 h with hstart | ⟨hstart, hstop⟩
  · exact Or.inl hstart
  · have hne : s.stop ≠ t.stop := by
      intro same
      have hst : s = t := by
        cases s
        cases t
        cases hstart
        cases same
        rfl
      exact beq_eq_false_iff_ne.1 apart hst
    exact Or.inr ⟨hstart, Nat.lt_of_le_of_ne hstop hne⟩

end Span

namespace Text

theorem mem_classSpans_iff
    {s : Text} {span : Span} :
    span ∈ s.classSpans ↔ span ∈ Cursor.classSpansFrom [] none 0 s.bytes := by
  exact mem_arranged_iff

theorem pairwise_start_classSpans
    (s : Text) :
    s.classSpans.Pairwise fun a b => a.start < b.start := by
  have strict : s.classSpans.Pairwise
      fun a b => a.start < b.start ∨ a.start = b.start ∧ a.stop < b.stop := by
    refine pairwise_arranged Span.before_trans Span.before_total ?_ Span.strict_of_before _
    intro a b c hab hbc
    omega
  refine strict.imp_of_mem ?_
  intro a b ha hb hab
  rcases hab with hstart | ⟨hstart, hstop⟩
  · exact hstart
  · -- Two literals with one beginning would have one end.
    have ha := hasLiteral_of_mem_classSpans ha
    have hb := hasLiteral_of_mem_classSpans hb
    obtain rfl := ha.eq_of_start_eq hb hstart
    exact absurd hstop (Nat.lt_irrefl _)

/-- What begins at a later byte begins at a later position. -/
theorem isBefore_of_length_lt
    {left left' : Text} (right right' : Text)
    (same : left ++ right = left' ++ right')
    (shorter : left.bytes.length < left'.bytes.length) :
    (Position.first.after left).IsBefore (Position.first.after left') := by
  rcases List.append_eq_append_iff.1 same with ⟨more, rfl, -⟩ | ⟨more, rfl, -⟩
  · have hne : more ≠ [] := by
      rintro rfl
      simp at shorter
    rw [Position.after_append]
    exact Position.isBefore_after _ hne
  · simp only [bytes_append, List.length_append] at shorter
    omega

theorem pairwise_position_classStrings
    (s : Text) :
    s.classStrings.Pairwise fun a b => a.position.IsBefore b.position := by
  unfold classStrings
  rw [List.pairwise_map]
  refine (pairwise_start_classSpans s).imp_of_mem ?_
  intro a b ha hb hab
  obtain ⟨before, quote, value, rest, hquoted⟩ := isQuotedAt_of_mem_classSpans ha
  obtain ⟨before', quote', value', rest', hquoted'⟩ := isQuotedAt_of_mem_classSpans hb
  rw [classStringAt_of_isQuotedAt hquoted, classStringAt_of_isQuotedAt hquoted']
  rw [hquoted.start_eq, hquoted'.start_eq] at hab
  refine isBefore_of_length_lt (value ++ quote :: rest) (value' ++ quote' :: rest') ?_ hab
  simpa using hquoted.text_eq.symm.trans hquoted'.text_eq

end Text

/-! ## Files -/

/-- The order of class strings by the names on the path, the line and the column. -/
def ClassOccurrence.IsBefore (a b : ClassOccurrence) : Prop :=
  a.path.pathNames < b.path.pathNames ∨
    a.path.pathNames = b.path.pathNames ∧ a.found.position.IsBefore b.found.position

theorem mem_occurrences
    {files : List (Text × Except AccessError Text)} {occurrence : ClassOccurrence}
    (h : occurrence ∈ (collectClassStrings files).occurrences) :
    ∃ file ∈ files, occurrence.path = file.1 := by
  induction files with
  | nil => exact absurd h List.not_mem_nil
  | cons file files ih =>
      obtain ⟨path, outcome⟩ := file
      cases outcome with
      | error e =>
          obtain ⟨file, hfile, hpath⟩ := ih h
          exact ⟨file, List.mem_cons_of_mem _ hfile, hpath⟩
      | ok text =>
          rcases List.mem_append.1 h with hhere | hthere
          · obtain ⟨found, -, rfl⟩ := List.mem_map.1 hhere
            exact ⟨(path, .ok text), List.mem_cons_self, rfl⟩
          · obtain ⟨file, hfile, hpath⟩ := ih hthere
            exact ⟨file, List.mem_cons_of_mem _ hfile, hpath⟩

theorem pairwise_collectClassStrings
    {files : List (Text × Except AccessError Text)}
    (increasing : files.Pairwise fun a b => a.1.pathNames < b.1.pathNames) :
    (collectClassStrings files).occurrences.Pairwise ClassOccurrence.IsBefore := by
  induction files with
  | nil => exact List.Pairwise.nil
  | cons file files ih =>
      obtain ⟨path, outcome⟩ := file
      obtain ⟨hhead, htail⟩ := List.pairwise_cons.1 increasing
      cases outcome with
      | error e => exact ih htail
      | ok text =>
          refine List.pairwise_append.2 ⟨?_, ih htail, ?_⟩
          · rw [List.pairwise_map]
            exact text.pairwise_position_classStrings.imp fun h => Or.inr ⟨rfl, h⟩
          · intro here hhere there hthere
            obtain ⟨found, -, rfl⟩ := List.mem_map.1 hhere
            obtain ⟨file, hfile, hpath⟩ := mem_occurrences hthere
            refine Or.inl ?_
            rw [hpath]
            exact hhead file hfile

theorem pairwise_occurrences_scanFiles
    (s : Surroundings) (keep : Text → Bool) (walked : List Text) :
    (scanFiles s (selectPaths keep walked)).occurrences.Pairwise ClassOccurrence.IsBefore := by
  refine pairwise_collectClassStrings ?_
  rw [List.pairwise_map]
  exact pairwise_selectPaths keep walked

/-- A scan that starts reads the files that its patterns select. -/
theorem scanPatterns_eq_ok
    {s : Surroundings} {options : ScanOptions} {included excluded : List Text}
    {result : ScanResult}
    (h : scanPatterns s options included excluded = .ok result) :
    ∃ includedTests excludedTests,
      result = scanFiles s (selectPaths (isSelected options includedTests excludedTests)
        (s.walk options.root options.useGitRules)) := by
  unfold scanPatterns at h
  split at h
  · cases h
  · split at h
    · cases h
    · next includedTests _ =>
        split at h
        · cases h
        · next excludedTests _ =>
            cases h
            exact ⟨includedTests, excludedTests, rfl⟩

/-- **Each literal is reported once and in order.**  In every text the positions are strictly
increasing and every literal that one of the searches finds is reported.  Whatever paths a walk
yields and whichever of them are selected, the class strings are strictly increasing by path, line
and column, and so are those of every scan, wherever it takes place. -/
theorem occurrences_strictly_increasing :
    (∀ s : Text,
      (s.classStrings.Pairwise fun a b => a.position.IsBefore b.position) ∧
      ∀ span ∈ Cursor.classSpansFrom [] none 0 s.bytes, s.classStringAt span ∈ s.classStrings) ∧
    (∀ (s : Surroundings) keep walked,
      (scanFiles s (selectPaths keep walked)).occurrences.Pairwise ClassOccurrence.IsBefore) ∧
    (∀ (s : Surroundings) options included excluded result,
      scanPatterns s options included excluded = .ok result →
        result.occurrences.Pairwise ClassOccurrence.IsBefore) := by
  refine ⟨fun s => ⟨s.pairwise_position_classStrings, ?_⟩, pairwise_occurrences_scanFiles, ?_⟩
  · intro span hspan
    exact List.mem_map_of_mem (Text.mem_classSpans_iff.2 hspan)
  · intro s options included excluded result h
    obtain ⟨includedTests, excludedTests, rfl⟩ := scanPatterns_eq_ok h
    exact pairwise_occurrences_scanFiles s _ _

/-- A file with a class attribute, and one with a call that is the argument of a call. -/
def twoFiles : FileTree :=
  ⟨[(["a".toList], "class='é'".toUTF8), (["b".toList], "tw(tw('x'))".toUTF8)], [], []⟩

theorem walk_twoFiles :
    twoFiles.walk ".".toList false = ["./a".toList, "./b".toList] := by
  decide +kernel

theorem selectPaths_twoFiles
    {keep : Text → Bool}
    (h : ["./a".toList, "./b".toList].all keep = true) :
    selectPaths keep ["./a".toList, "./b".toList] = ["./a".toList, "./b".toList] := by
  have hkept : ["./a".toList, "./b".toList].filter keep = ["./a".toList, "./b".toList] :=
    List.filter_eq_self.2 (List.all_eq_true.1 h)
  have hunseen : unseenPaths [] ["./a".toList, "./b".toList] =
      ["./a".toList, "./b".toList] := by
    decide
  rw [selectPaths, hkept, hunseen]
  exact List.mergeSort_of_pairwise (by decide)

theorem classStrings_attribute :
    Text.classStrings "class='é'".toList = [⟨⟨1, 8⟩, "é".toList⟩] := by
  decide +kernel

/-- Both calls reach the literal. -/
theorem classStrings_nestedCalls :
    Text.classStrings "tw(tw('x'))".toList = [⟨⟨1, 8⟩, "x".toList⟩] := by
  have hfound : Cursor.classSpansFrom [] none 0 (Text.bytes "tw(tw('x'))".toList) =
      [⟨7, 8⟩, ⟨7, 8⟩] := by
    decide +kernel
  have hsorted : [⟨7, 8⟩, ⟨7, 8⟩].mergeSort Span.before = [⟨7, 8⟩, ⟨7, 8⟩] :=
    List.mergeSort_of_pairwise (by decide)
  unfold Text.classStrings Text.classSpans
  rw [hfound, hsorted]
  decide

theorem decodeText_of_ofBytes?
    {content : ByteArray} {text : Text}
    (h : Text.ofBytes? content = some text) :
    decodeText content = .ok text := by
  rw [decodeText, h]

theorem readText_twoFiles :
    twoFiles.readText "./a".toList = .ok "class='é'".toList ∧
    twoFiles.readText "./b".toList = .ok "tw(tw('x'))".toList := by
  have hattribute : Text.ofBytes? "class='é'".toUTF8 = some "class='é'".toList := by
    decide +kernel
  have hcalls : Text.ofBytes? "tw(tw('x'))".toUTF8 = some "tw(tw('x'))".toList := by
    decide +kernel
  exact ⟨decodeText_of_ofBytes? hattribute, decodeText_of_ofBytes? hcalls⟩

theorem scanFiles_twoFiles :
    scanFiles twoFiles ["./a".toList, "./b".toList] =
      ⟨2, [⟨"./a".toList, ⟨1, 8⟩, "é".toList⟩, ⟨"./b".toList, ⟨1, 8⟩, "x".toList⟩]⟩ := by
  simp only [scanFiles, FileTree.surroundings, List.map_cons, List.map_nil,
    readText_twoFiles.1, readText_twoFiles.2, collectClassStrings, classStrings_attribute,
    classStrings_nestedCalls]
  rfl

theorem scanPatterns_twoFiles :
    scanPatterns twoFiles ⟨".".toList, false, false⟩ ["**".toList] [] =
      .ok ⟨2, [⟨"./a".toList, ⟨1, 8⟩, "é".toList⟩, ⟨"./b".toList, ⟨1, 8⟩, "x".toList⟩]⟩ := by
  have hkept : ((twoFiles.surroundings.tests ["**".toList]).toOption.map fun tests =>
      ["./a".toList, "./b".toList].all (isSelected ⟨".".toList, false, false⟩ tests [])) =
        some true := by
    decide +kernel
  have hnone : twoFiles.surroundings.tests [] = .ok [] := rfl
  have hwalk : twoFiles.surroundings.walk ".".toList false = ["./a".toList, "./b".toList] :=
    walk_twoFiles
  cases htests : twoFiles.surroundings.tests ["**".toList] with
  | error e =>
      rw [htests] at hkept
      cases hkept
  | ok tests =>
      rw [htests] at hkept
      have hselected := selectPaths_twoFiles (Option.some.inj hkept)
      simp only [scanPatterns, htests, hnone, hwalk, hselected, scanFiles_twoFiles]
      rfl

/-- Two files, in one of which a literal is found twice. -/
theorem occurrences_strictly_increasing_twoFiles :
    List.Pairwise ClassOccurrence.IsBefore
      [⟨"./a".toList, ⟨1, 8⟩, "é".toList⟩, ⟨"./b".toList, ⟨1, 8⟩, "x".toList⟩] := by
  exact occurrences_strictly_increasing.2.2 _ _ _ _ _ scanPatterns_twoFiles

end ClassLint
