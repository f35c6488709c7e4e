import ClassLint.Color.Written
import ClassLint.Proofs.Text.LowerCase

/-!
# The words of an OKLCH color

The reader of an OKLCH color makes underscores to blanks and capitals to small letters, puts blanks
around every slash and looks at the words that come out.  A gap, a slash and a field in front of a
text each have a law that says what they do to the words, and as every text begins with one of them,
the words tell how the text is laid out.

**Results.**
* `layoutWords_gap`, `layoutWords_slash`, `layoutWords_field`: the laws.
* `layoutWords_eq_nil_iff`, `slash_of_layoutWords`, `field_of_layoutWords`: what the first word
  says.
-/

namespace ClassLint

namespace Text

theorem words_cons_of_isBlank
    {c : Char}
    (h : isBlank c = true)
    (s : Text) :
    words (c :: s) = words s :=
  words_append_cons h [] s

/-- A text without blanks is one word. -/
theorem words_of_all_not_isBlank
    {s : Text}
    (hne : s ≠ [])
    (h : ∀ c ∈ s, isBlank c = false) :
    words s = [s] := by
  rw [words, pieces_of_all_not h]
  simpa using hne

end Text

/-! ## Gaps, slashes and fields -/

/-- A blank or an underscore. -/
def isGapChar (c : Char) : Bool :=
  isBlank c || c == '_'

/-- Blanks and underscores, or nothing. -/
def IsGap (s : Text) : Prop :=
  ∀ c ∈ s, isGapChar c = true

/-- A nonempty text without blanks, underscores and slashes. -/
def IsField (s : Text) : Prop :=
  s ≠ [] ∧ ∀ c ∈ s, isGapChar c = false ∧ c ≠ '/'

-- Not the instance for all characters of a finite type, which does not evaluate.
instance (s : Text) : Decidable (IsGap s) :=
  List.decidableBAll (fun c => isGapChar c = true) s

instance (s : Text) : Decidable (IsField s) :=
  have := List.decidableBAll (fun c => isGapChar c = false ∧ c ≠ '/') s
  instDecidableAnd

/-- Nothing follows, or what follows does not belong to a field. -/
def EndsField (s : Text) : Prop :=
  ∀ c ∈ s.head?, isGapChar c = true ∨ c = '/'

/-- The character as the reader of a color takes it. -/
def foldChar (c : Char) : Char :=
  (if c = '_' then ' ' else c).toLower

/-- The text as the reader of a color takes it. -/
def Text.folded (s : Text) : Text :=
  s.map foldChar

theorem lower_map_eq_folded
    (s : Text) :
    Text.lower (s.map fun c => if c = '_' then ' ' else c) = s.folded :=
  List.map_map

theorem folded_append
    (s t : Text) :
    Text.folded (s ++ t) = s.folded ++ t.folded :=
  List.map_append

theorem isBlank_foldChar
    (c : Char) :
    isBlank (foldChar c) = isGapChar c := by
  unfold foldChar isGapChar
  rw [isBlank_toLower]
  by_cases h : c = '_'
  · subst h
    decide
  · rw [if_neg h, beq_false_of_ne h, Bool.or_false]

theorem foldChar_of_ne
    {c : Char}
    (h : c ≠ '_') :
    foldChar c = c.toLower := by
  rw [foldChar, if_neg h]

theorem ne_underscore_of_not_isGapChar
    {c : Char}
    (h : isGapChar c = false) :
    c ≠ '_' := by
  rintro rfl
  exact absurd h (by decide)

theorem slash_ne_of_isGapChar
    {c : Char}
    (h : isGapChar c = true) :
    c ≠ '/' := by
  rintro rfl
  exact absurd h (by decide)

theorem foldChar_eq_iff
    {c d : Char}
    (hletter : d.isAlpha = false)
    (hblank : d ≠ ' ') :
    foldChar c = d ↔ c = d ∧ c ≠ '_' := by
  constructor
  · intro h
    by_cases hc : c = '_'
    · subst hc
      exact absurd h.symm hblank
    · rw [foldChar_of_ne hc] at h
      exact ⟨Text.eq_of_toLower_eq hletter h, hc⟩
  · rintro ⟨rfl, hc⟩
    rw [foldChar_of_ne hc]
    exact Char.toLower_eq_of_not_isUpper fun h => by simp [Char.isAlpha, h] at hletter

theorem foldChar_eq_slash_iff
    {c : Char} :
    foldChar c = '/' ↔ c = '/' := by
  rw [foldChar_eq_iff (by decide) (by decide)]
  exact ⟨fun h => h.1, fun h => ⟨h, h ▸ by decide⟩⟩

theorem folded_of_not_mem
    {s : Text}
    (h : '_' ∉ s) :
    s.folded = s.lower :=
  List.map_congr_left fun _ hc => foldChar_of_ne fun e => h (e ▸ hc)

/-! ## The words of a layout -/

/-- The words that the reader of a color sees. -/
def layoutWords (s : Text) : List Text :=
  oklchWords s.folded

/-- The character, with blanks around it if it is a slash. -/
def padSlash (c : Char) : Text :=
  if c = '/' then [' ', '/', ' '] else [c]

theorem padSlash_foldChar
    {c : Char}
    (h : c ≠ '/') :
    padSlash (foldChar c) = [foldChar c] :=
  if_neg fun e => h (foldChar_eq_slash_iff.1 e)

theorem layoutWords_eq
    (s : Text) :
    layoutWords s = Text.words (s.flatMap fun c => padSlash (foldChar c)) := by
  show Text.words (List.flatMap padSlash (s.map foldChar)) = _
  rw [List.flatMap_map]

theorem layoutWords_gapChar
    {c : Char}
    (h : isGapChar c = true)
    (s : Text) :
    layoutWords (c :: s) = layoutWords s := by
  rw [layoutWords_eq, layoutWords_eq, List.flatMap_cons,
    padSlash_foldChar (slash_ne_of_isGapChar h)]
  exact Text.words_cons_of_isBlank ((isBlank_foldChar c).trans h) _

/-- A gap adds no word. -/
theorem layoutWords_gap
    {g : Text}
    (hg : IsGap g)
    (s : Text) :
    layoutWords (g ++ s) = layoutWords s := by
  induction g with
  | nil => rfl
  | cons c g ih =>
      rw [List.cons_append, layoutWords_gapChar (hg c List.mem_cons_self)]
      exact ih fun b hb => hg b (List.mem_cons_of_mem c hb)

theorem layoutWords_of_isGap
    {g : Text}
    (hg : IsGap g) :
    layoutWords g = [] := by
  have hwords := layoutWords_gap hg []
  rw [List.append_nil] at hwords
  rw [hwords]
  rfl

/-- A slash is a word. -/
theorem layoutWords_slash
    (s : Text) :
    layoutWords ('/' :: s) = ['/'] :: layoutWords s := by
  rw [layoutWords_eq, layoutWords_eq, List.flatMap_cons]
  exact Text.words_append_cons (c := ' ') (by decide) [' ', '/'] _

/-- A field is a word, in lower case. -/
theorem layoutWords_field
    {w s : Text}
    (hw : IsField w)
    (hs : EndsField s) :
    layoutWords (w ++ s) = w.lower :: layoutWords s := by
  have hpadded : (w.flatMap fun c => padSlash (foldChar c)) = w.lower := by
    rw [Text.lower, List.map_eq_flatMap]
    refine List.flatMap_congr fun c hc => ?_
    obtain ⟨hgap, hslash⟩ := hw.2 c hc
    rw [padSlash_foldChar hslash, foldChar_of_ne (ne_underscore_of_not_isGapChar hgap)]
  have hword : Text.words w.lower = [w.lower] := by
    refine Text.words_of_all_not_isBlank (fun e => hw.1 (List.map_eq_nil_iff.1 e)) ?_
    intro c hc
    obtain ⟨b, hb, rfl⟩ := List.mem_map.1 hc
    rw [isBlank_toLower]
    exact (Bool.or_eq_false_iff.1 (hw.2 b hb).1).1
  rw [layoutWords_eq, layoutWords_eq, List.flatMap_append, hpadded]
  cases s with
  | nil => rw [List.flatMap_nil, List.append_nil, hword]; rfl
  | cons c s =>
      -- What follows the field begins with a blank once the slashes have theirs.
      obtain ⟨b, rest, hb, hrest⟩ : ∃ b rest, isBlank b = true ∧
          ((c :: s).flatMap fun c => padSlash (foldChar c)) = b :: rest := by
        rw [List.flatMap_cons]
        rcases hs c rfl with hgap | rfl
        · rw [padSlash_foldChar (slash_ne_of_isGapChar hgap)]
          exact ⟨foldChar c, _, (isBlank_foldChar c).trans hgap, rfl⟩
        · exact ⟨' ', _, by decide, rfl⟩
      rw [hrest, Text.words_append_cons hb, hword, Text.words_cons_of_isBlank hb]
      rfl

/-- Every text is a gap, or begins after a gap with a slash or a field. -/
theorem gap_or_slash_or_field
    (s : Text) :
    IsGap s ∨
      (∃ g rest, IsGap g ∧ s = g ++ '/' :: rest) ∨
      ∃ g w rest, IsGap g ∧ IsField w ∧ EndsField rest ∧ s = g ++ (w ++ rest) := by
  have hgap : IsGap (s.takeWhile isGapChar) := fun c hc =>
    List.all_eq_true.1 List.all_takeWhile c hc
  have hsplit := List.takeWhile_append_dropWhile (p := isGapChar) (l := s)
  cases hafter : s.dropWhile isGapChar with
  | nil =>
      rw [hafter, List.append_nil] at hsplit
      rw [hsplit] at hgap
      exact Or.inl hgap
  | cons c rest =>
      have hc : isGapChar c = false := by
        have hhead := List.head?_dropWhile_not isGapChar s
        rw [hafter] at hhead
        simpa using hhead
      rw [hafter] at hsplit
      by_cases hslash : c = '/'
      · subst hslash
        exact Or.inr (Or.inl ⟨_, rest, hgap, hsplit.symm⟩)
      · -- The field is everything up to the next gap or slash.
        let inField : Char → Bool := fun b => !(isGapChar b || b == '/')
        have hfirst : inField c = true := by
          simp only [inField, hc, beq_false_of_ne hslash]
          rfl
        refine Or.inr (Or.inr ⟨_, (c :: rest).takeWhile inField, (c :: rest).dropWhile inField,
          hgap, ⟨?_, ?_⟩, ?_, ?_⟩)
        · rw [List.takeWhile_cons_of_pos hfirst]
          exact List.cons_ne_nil _ _
        · intro b hb
          have hin : inField b = true := List.all_eq_true.1 List.all_takeWhile b hb
          simpa [inField] using hin
        · intro b hb
          have hhead := List.head?_dropWhile_not inField (c :: rest)
          rw [Option.mem_def.1 hb] at hhead
          have hout : isGapChar b = false → b = '/' := by simpa [inField] using hhead
          by_cases hb : isGapChar b = true
          · exact Or.inl hb
          · exact Or.inr (hout (Bool.eq_false_iff.2 hb))
        · rw [List.takeWhile_append_dropWhile]
          exact hsplit.symm

theorem lower_ne_slash_of_isField
    {w : Text}
    (hw : IsField w) :
    w.lower ≠ ['/'] := by
  intro h
  obtain ⟨c, hc, hlower⟩ := List.map_eq_singleton_iff.1 h
  subst hc
  exact (hw.2 c List.mem_cons_self).2 (Text.eq_of_toLower_eq (by decide) hlower)

/-- Without words there is only a gap. -/
theorem layoutWords_eq_nil_iff
    {s : Text} :
    layoutWords s = [] ↔ IsGap s := by
  refine ⟨fun h => ?_, layoutWords_of_isGap⟩
  rcases gap_or_slash_or_field s with hgap | ⟨g, rest, hg, rfl⟩ | ⟨g, w, rest, hg, hw, hrest, rfl⟩
  · exact hgap
  · rw [layoutWords_gap hg, layoutWords_slash] at h
    cases h
  · rw [layoutWords_gap hg, layoutWords_field hw hrest] at h
    cases h

/-- A slash as the first word stands behind a gap. -/
theorem slash_of_layoutWords
    {s : Text} {ws : List Text}
    (h : layoutWords s = ['/'] :: ws) :
    ∃ g rest, IsGap g ∧ s = g ++ '/' :: rest ∧ layoutWords rest = ws := by
  rcases gap_or_slash_or_field s with hgap | ⟨g, rest, hg, rfl⟩ | ⟨g, w, rest, hg, hw, hrest, rfl⟩
  · rw [layoutWords_of_isGap hgap] at h
    cases h
  · rw [layoutWords_gap hg, layoutWords_slash] at h
    exact ⟨g, rest, hg, rfl, (List.cons_eq_cons.1 h).2⟩
  · rw [layoutWords_gap hg, layoutWords_field hw hrest] at h
    exact absurd (List.cons_eq_cons.1 h).1 (lower_ne_slash_of_isField hw)

/-- Another first word is the lower case of a field behind a gap. -/
theorem field_of_layoutWords
    {s w : Text} {ws : List Text}
    (hne : w ≠ ['/'])
    (h : layoutWords s = w :: ws) :
    ∃ g v rest, IsGap g ∧ IsField v ∧ EndsField rest ∧ s = g ++ (v ++ rest) ∧ v.lower = w ∧
      layoutWords rest = ws := by
  rcases gap_or_slash_or_field s with hgap | ⟨g, rest, hg, rfl⟩ | ⟨g, v, rest, hg, hv, hrest, rfl⟩
  · rw [layoutWords_of_isGap hgap] at h
    cases h
  · rw [layoutWords_gap hg, layoutWords_slash] at h
    exact absurd (List.cons_eq_cons.1 h).1.symm hne
  · rw [layoutWords_gap hg, layoutWords_field hv hrest] at h
    obtain ⟨hw, hws⟩ := List.cons_eq_cons.1 h
    exact ⟨g, v, rest, hg, hv, hrest, rfl, hw, hws⟩

/-- The text begins with a gap that is not empty. -/
theorem ne_nil_of_endsField
    {g w s : Text}
    (hw : IsField w)
    (h : EndsField (g ++ (w ++ s))) :
    g ≠ [] := by
  rintro rfl
  cases w with
  | nil => exact hw.1 rfl
  | cons c w =>
      obtain ⟨hgap, hslash⟩ := hw.2 c List.mem_cons_self
      rcases h c rfl with hc | hc
      · rw [hgap] at hc
        cases hc
      · exact hslash hc

theorem endsField_of_isGap
    {g : Text}
    (hg : IsGap g)
    (hne : g ≠ [])
    (s : Text) :
    EndsField (g ++ s) := by
  cases g with
  | nil => exact absurd rfl hne
  | cons c g =>
      rintro b ⟨rfl⟩
      exact Or.inl (hg c List.mem_cons_self)

/-- After a gap nothing follows, or a slash. -/
theorem endsField_gap_append
    {g s : Text}
    (hg : IsGap g)
    (hs : EndsField s) :
    EndsField (g ++ s) := by
  cases g with
  | nil => exact hs
  | cons c g => exact endsField_of_isGap hg (List.cons_ne_nil c g) s

end ClassLint
