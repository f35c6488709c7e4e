import ClassLint.Utility.Scope

/-!
# The factorisation of a class into segments

The segments of a class are one way among many to write it as texts joined with
colons.  They are singled out by two conditions: no segment, read on its own from the
outermost depth, meets a colon there, and every segment but the last ends where it
began, at the outermost depth.

**Results.**
* `segmentsFrom_eq_iff`: the segments are the one list with these properties that joins
  to the class; nothing is assumed about the balance of its brackets.
* `toText_ofText`: a class is written back as it was read.
-/

namespace ClassLint

namespace Text

/-- Texts that can follow one another as segments when reading begins at depth `d`. -/
def IsChainFrom (d : Depth) : List Text → Prop
  | [] => False
  | [part] => Depth.meets ':' d part = false
  | part :: next :: rest =>
      Depth.meets ':' d part = false ∧ d.after part = Depth.outermost ∧
        IsChainFrom Depth.outermost (next :: rest)

/-- The texts are segments that join to the text. -/
structure IsFactorisation (s : Text) (parts : List Text) : Prop where
  ne_nil : parts ≠ []
  join_eq : join [':'] parts = s
  not_meets : ∀ part ∈ parts, Depth.meets ':' Depth.outermost part = false
  settles : ∀ part ∈ parts.dropLast, Depth.outermost.after part = Depth.outermost

/-- Only the first text of a chain is read from the depth at which the chain begins. -/
theorem isChainFrom_cons_iff
    {d : Depth} {part : Text} {rest : List Text}
    (h : rest ≠ []) :
    IsChainFrom d (part :: rest) ↔
      Depth.meets ':' d part = false ∧ d.after part = Depth.outermost ∧
        IsChainFrom Depth.outermost rest := by
  cases rest with
  | nil => exact absurd rfl h
  | cons next rest => rfl

theorem isChainFrom_segmentsFrom
    (d : Depth) (s : Text) :
    IsChainFrom d (segmentsFrom d s) := by
  induction s generalizing d with
  | nil => rfl
  | cons c s ih =>
      simp only [segmentsFrom]
      split
      · next h =>
          obtain ⟨-, rfl⟩ := h
          rw [isChainFrom_cons_iff (segmentsFrom_ne_nil _ s)]
          exact ⟨rfl, rfl, ih _⟩
      · next h =>
          have hchain := ih (d.step c)
          cases hs : segmentsFrom (d.step c) s with
          | nil => exact absurd hs (segmentsFrom_ne_nil _ s)
          | cons part rest =>
              rw [hs] at hchain
              cases rest with
              | nil => exact Depth.meets_cons_eq_false_iff.2 ⟨h, hchain⟩
              | cons next rest =>
                  obtain ⟨hmeets, hafter, hrest⟩ := hchain
                  exact ⟨Depth.meets_cons_eq_false_iff.2 ⟨h, hmeets⟩, hafter, hrest⟩

/-- A text that meets no colon is one segment. -/
theorem segmentsFrom_of_not_meets
    {d : Depth} {s : Text}
    (h : Depth.meets ':' d s = false) :
    segmentsFrom d s = [s] := by
  induction s generalizing d with
  | nil => rfl
  | cons c s ih =>
      obtain ⟨hc, hs⟩ := Depth.meets_cons_eq_false_iff.1 h
      rw [segmentsFrom, if_neg hc, ih hs]
      rfl

/-- A colon after a text that meets none and ends at the outermost depth ends a segment. -/
theorem segmentsFrom_append_colon
    {d : Depth} {part : Text}
    (h : Depth.meets ':' d part = false)
    (hafter : d.after part = Depth.outermost)
    (s : Text) :
    segmentsFrom d (part ++ ':' :: s) = part :: segmentsFrom Depth.outermost s := by
  induction part generalizing d with
  | nil =>
      rw [Depth.after_nil] at hafter
      subst hafter
      rfl
  | cons c part ih =>
      obtain ⟨hc, hpart⟩ := Depth.meets_cons_eq_false_iff.1 h
      rw [List.cons_append, segmentsFrom, if_neg hc, ih hpart hafter]
      rfl

theorem segmentsFrom_join
    {d : Depth} {parts : List Text}
    (h : IsChainFrom d parts) :
    segmentsFrom d (join [':'] parts) = parts := by
  induction parts generalizing d with
  | nil => exact h.elim
  | cons part rest ih =>
      by_cases hrest : rest = []
      · subst hrest
        exact segmentsFrom_of_not_meets h
      · obtain ⟨hmeets, hafter, hchain⟩ := (isChainFrom_cons_iff hrest).1 h
        have hjoin : join [':'] (part :: rest) = part ++ ':' :: join [':'] rest := by
          rw [join_cons_of_ne_nil _ _ hrest]
          simp
        rw [hjoin, segmentsFrom_append_colon hmeets hafter, ih hchain]

/-- Reading from any depth has exactly one chain that joins to the text. -/
theorem segmentsFrom_eq_iff
    {d : Depth} {s : Text} {parts : List Text} :
    segmentsFrom d s = parts ↔ IsChainFrom d parts ∧ join [':'] parts = s := by
  constructor
  · rintro rfl
    exact ⟨isChainFrom_segmentsFrom d s, join_segmentsFrom d s⟩
  · rintro ⟨hchain, rfl⟩
    exact segmentsFrom_join hchain

theorem isChainFrom_outermost_iff
    {parts : List Text} :
    IsChainFrom Depth.outermost parts ↔
      parts ≠ [] ∧
      (∀ part ∈ parts, Depth.meets ':' Depth.outermost part = false) ∧
      (∀ part ∈ parts.dropLast, Depth.outermost.after part = Depth.outermost) := by
  induction parts with
  | nil => simp [IsChainFrom]
  | cons part rest ih =>
      by_cases hrest : rest = []
      · subst hrest
        simp [IsChainFrom]
      · rw [isChainFrom_cons_iff hrest, ih, List.dropLast_cons_of_ne_nil hrest]
        simp only [ne_eq, hrest, not_false_eq_true, true_and, List.forall_mem_cons,
          reduceCtorEq]
        constructor
        · rintro ⟨hpart, hafter, hmeets, hsettles⟩
          exact ⟨⟨hpart, hmeets⟩, hafter, hsettles⟩
        · rintro ⟨⟨hpart, hmeets⟩, hafter, hsettles⟩
          exact ⟨hpart, hafter, hmeets, hsettles⟩

theorem isFactorisation_iff_isChainFrom
    {s : Text} {parts : List Text} :
    IsFactorisation s parts ↔
      IsChainFrom Depth.outermost parts ∧ join [':'] parts = s := by
  rw [isChainFrom_outermost_iff]
  constructor
  · intro h
    exact ⟨⟨h.ne_nil, h.not_meets, h.settles⟩, h.join_eq⟩
  · rintro ⟨⟨hne, hmeets, hsettles⟩, hjoin⟩
    exact ⟨hne, hjoin, hmeets, hsettles⟩

theorem isFactorisation_segments
    (s : Text) :
    IsFactorisation s s.segments :=
  isFactorisation_iff_isChainFrom.2 (segmentsFrom_eq_iff.1 rfl)

end Text

/-- Writing a class back gives the text it was read from. -/
theorem ScopedClass.toText_ofText
    (s : Text) :
    (ScopedClass.ofText s).toText = s := by
  have hne : s.segments ≠ [] := Text.segmentsFrom_ne_nil _ _
  have hlast : s.segments.dropLast ++ [s.segments.getLast hne] = s.segments :=
    List.dropLast_concat_getLast hne
  have hjoin := Text.join_segments s
  rw [← hlast] at hjoin
  simp only [ScopedClass.toText, ScopedClass.ofText, ScopedClass.scope]
  cases hvariants : s.segments.dropLast with
  | nil =>
      rw [hvariants] at hjoin
      exact hjoin
  | cons v vs =>
      rw [hvariants, Text.join_append_singleton _ _ (by simp)] at hjoin
      simpa using hjoin

/--
**Canonical factorisation.**  The segments of a class are its only factorisation, whether
its brackets are balanced or not.  Hence a class is written back as it was read, a segment
has no segments but itself, and texts that satisfy the two conditions are recovered from
their join.
-/
theorem Text.segments_canonical :
    (∀ (s : Text) (parts : List Text),
      IsFactorisation s parts ↔ parts = s.segments) ∧
    (∀ s : Text, (ScopedClass.ofText s).toText = s) ∧
    (∀ s : Text, ∀ part ∈ s.segments, part.segments = [part]) ∧
    (∀ parts : List Text,
      parts ≠ [] →
      (∀ part ∈ parts, Depth.meets ':' Depth.outermost part = false) →
      (∀ part ∈ parts.dropLast, Depth.outermost.after part = Depth.outermost) →
      (join [':'] parts).segments = parts) := by
  refine ⟨?_, ScopedClass.toText_ofText, ?_, ?_⟩
  · intro s parts
    rw [isFactorisation_iff_isChainFrom, ← segmentsFrom_eq_iff]
    exact eq_comm
  · intro s part hpart
    exact segmentsFrom_of_not_meets ((isFactorisation_segments s).not_meets part hpart)
  · intro parts hne hmeets hsettles
    exact segmentsFrom_join (isChainFrom_outermost_iff.2 ⟨hne, hmeets, hsettles⟩)

/-- Stray closers, an empty segment, and a bracket that is never closed. -/
theorem Text.segments_canonical_unbalanced :
    IsFactorisation "a]::)[b:c".toList ["a]".toList, [], ")[b:c".toList] ∧
    segments ")[b:c".toList = [")[b:c".toList] ∧
    segments (join [':'] ["a]".toList, [], ")[b:c".toList]) =
      ["a]".toList, [], ")[b:c".toList] :=
  ⟨(segments_canonical.1 _ _).2 (by decide),
    segments_canonical.2.2.1 "a]::)[b:c".toList ")[b:c".toList (by decide),
    segments_canonical.2.2.2 _ (by decide) (by decide) (by decide)⟩

end ClassLint
