import ClassLint.Proofs.Report.JsonText
import ClassLint.Run

/-!
# File trees are lawful surroundings

A walk of a file tree puts the names on the way to a file behind the path of its root, and the names
on such a path are those of the root and then these names.  So two paths of one walk that have the
same names are the same path.

**Results.**
* `Text.pathNames_foldl_joinPath`: the names on a path that is put together from names.
* `FileTree.lawful`: what runs may rely on holds in every file tree.
-/

namespace ClassLint

namespace Text

theorem isEntryName_iff
    {name : Text} :
    name.isEntryName = true ↔
      name ≠ [] ∧ name ≠ ['.'] ∧ name ≠ ['.', '.'] ∧ '/' ∉ name := by
  simp [isEntryName, and_assoc]

/-- Only in front of the first slash an empty name or a single point counts. -/
theorem pathNames_append_slash
    (front rest : Text) :
    pathNames (front ++ '/' :: rest) =
      front.pathNames ++
        (rest.pieces (· == '/')).filter fun name => !(name.isEmpty || name == ['.']) := by
  unfold pathNames
  rw [pieces_append_cons (by rfl)]
  cases hfront : front.pieces (· == '/') with
  | nil => exact absurd hfront (pieces_ne_nil _ front)
  | cons first names =>
      simp only [List.cons_append, List.filter_append]

/-- A name that is put behind a path is the last name on it. -/
theorem pathNames_joinPath
    {directory name : Text}
    (hne : directory ≠ [])
    (hname : name.isEntryName = true) :
    (directory.joinPath name).pathNames = directory.pathNames ++ [name] := by
  obtain ⟨hnil, hpoint, -, hslash⟩ := isEntryName_iff.1 hname
  have hpieces : name.pieces (· == '/') = [name] :=
    pieces_of_all_not fun c hc => beq_eq_false_iff_ne.2 fun h => hslash (h ▸ hc)
  have hbehind (front : Text) :
      pathNames (front ++ '/' :: name) = front.pathNames ++ [name] := by
    rw [pathNames_append_slash, hpieces]
    simp [hnil, hpoint]
  unfold joinPath
  split
  · next hlast =>
      -- The slash is there already, and the empty name behind it does not count.
      have hends : directory.getLast? = some '/' := by
        simpa [hne] using hlast
      obtain ⟨front, rfl⟩ := List.getLast?_eq_some_iff.1 hends
      have hempty : pathNames (front ++ ['/']) = pathNames front := by
        rw [pathNames_append_slash]
        exact List.append_nil _
      rw [List.append_assoc, List.cons_append, List.nil_append, hbehind, hempty]
  · exact hbehind directory

theorem joinPath_ne_nil
    {directory : Text}
    (hne : directory ≠ [])
    (name : Text) :
    directory.joinPath name ≠ [] := by
  unfold joinPath
  split <;> simp [hne]

theorem pathNames_foldl_joinPath
    {directory : Text} {names : List Text}
    (hne : directory ≠ [])
    (hnames : ∀ name ∈ names, name.isEntryName = true) :
    (names.foldl joinPath directory).pathNames = directory.pathNames ++ names := by
  induction names generalizing directory with
  | nil => rw [List.foldl_nil, List.append_nil]
  | cons name names ih =>
      have hname := hnames name List.mem_cons_self
      have hrest : ∀ other ∈ names, other.isEntryName = true := fun other hother =>
        hnames other (List.mem_cons_of_mem name hother)
      rw [List.foldl_cons, ih (joinPath_ne_nil hne name) hrest, pathNames_joinPath hne hname,
        List.append_assoc]
      rfl

end Text

namespace FileTree

theorem path_ne_nil_of_locate
    {tree : FileTree} {path : Text} {place : Location}
    (h : tree.locate path = .ok place) :
    path ≠ [] := by
  rintro rfl
  cases h

/-- What a walk reaches lies behind the path of its root. -/
theorem exists_names_of_mem_walk
    {tree : FileTree} {path reached : Text} {useGit : Bool}
    (h : reached ∈ tree.walk path useGit) :
    path ≠ [] ∧ ∃ names : List Text, (∀ name ∈ names, name.isEntryName = true) ∧
      reached = names.foldl Text.joinPath path := by
  unfold walk at h
  split at h
  · cases h
  · next place hplace =>
      refine ⟨path_ne_nil_of_locate hplace, ?_⟩
      simp only at h
      split at h
      · cases h
      · split at h
        · exact ⟨[], by simp, List.mem_singleton.1 h⟩
        · obtain ⟨file, hfile, rfl⟩ := List.mem_map.1 h
          have hreached := (List.mem_filter.1 hfile).2
          simp only [Bool.and_eq_true, List.all_eq_true] at hreached
          refine ⟨file.1.drop place.length, fun name hname => ?_, rfl⟩
          exact hreached.1.2 name (List.mem_of_mem_drop hname)

theorem eq_of_mem_walk
    {tree : FileTree} {path a b : Text} {useGit : Bool}
    (ha : a ∈ tree.walk path useGit)
    (hb : b ∈ tree.walk path useGit)
    (hnames : a.pathNames = b.pathNames) :
    a = b := by
  obtain ⟨hne, names, hentries, rfl⟩ := exists_names_of_mem_walk ha
  obtain ⟨-, names', hentries', rfl⟩ := exists_names_of_mem_walk hb
  rw [Text.pathNames_foldl_joinPath hne hentries, Text.pathNames_foldl_joinPath hne hentries']
    at hnames
  rw [List.append_cancel_left hnames]

end FileTree

namespace Glob

/-- A pattern can be used unless it is malformed or nested too deeply. -/
theorem isTooDeepPattern_of_isUsable
    {tree : FileTree} {written : Text}
    (h : tree.surroundings.isUsable written = true) :
    isTooDeepPattern written = false := by
  have hfault := (Bool.and_eq_true_iff.1 h).2
  simpa [FileTree.surroundings, userPatternsFault?] using hfault

end Glob

/-- What runs may rely on holds in every file tree. -/
theorem FileTree.lawful
    (tree : FileTree) :
    tree.surroundings.Lawful where
  path_eq_of_mem_walk root useGitRules a ha b hb := eq_of_mem_walk ha hb
  patternsFault?_eq_none written husable := by
    have hnone : written.findIdx? Glob.isTooDeepPattern = none :=
      List.findIdx?_eq_none_iff.2 fun pattern hpattern =>
        Glob.isTooDeepPattern_of_isUsable (husable pattern hpattern)
    change Glob.userPatternsFault? written = none
    rw [Glob.userPatternsFault?, hnone]
    rfl
  jsonText_injective v w h := JsonValue.pretty_injective h

end ClassLint
