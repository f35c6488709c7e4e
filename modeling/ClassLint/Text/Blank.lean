import ClassLint.Text.Basic

/-!
# Blank characters

The characters with the White_Space property of Unicode, trimming a text at both
ends, and cutting it into its words.
-/

namespace ClassLint

/-- The twenty-five code points with the White_Space property. -/
def isBlank (c : Char) : Bool :=
  let n := c.toNat
  (0x09 ≤ n && n ≤ 0x0D) || n == 0x20 || n == 0x85 || n == 0xA0 || n == 0x1680 ||
    (0x2000 ≤ n && n ≤ 0x200A) || n == 0x2028 || n == 0x2029 || n == 0x202F ||
    n == 0x205F || n == 0x3000

namespace Text

/-- The text without blanks at its beginning. -/
def trimLead (s : Text) : Text :=
  s.dropWhile isBlank

/-- The text without blanks at its end. -/
def trimTail (s : Text) : Text :=
  (s.reverse.dropWhile isBlank).reverse

/-- The text without blanks at either end. -/
def trim (s : Text) : Text :=
  s.trimLead.trimTail

/-- Whether some character of the text is blank. -/
def hasBlank (s : Text) : Bool :=
  s.any isBlank

/-- The maximal runs of characters that are not blank, in order. -/
def words (s : Text) : List Text :=
  (s.pieces isBlank).filter fun w => !w.isEmpty

theorem ne_nil_of_mem_words
    {s w : Text}
    (h : w ∈ s.words) :
    w ≠ [] := by
  have := (List.mem_filter.1 h).2
  simpa using this

/-- A blank between two texts keeps their words apart. -/
theorem words_append_cons
    {c : Char}
    (h : isBlank c = true)
    (s t : Text) :
    words (s ++ c :: t) = words s ++ words t := by
  unfold words
  rw [pieces_append_cons h, List.filter_append]

theorem words_of_mem_words
    {s w : Text}
    (h : w ∈ s.words) :
    w.words = [w] := by
  have hpiece : w ∈ s.pieces isBlank := (List.mem_filter.1 h).1
  have hne : w ≠ [] := ne_nil_of_mem_words h
  rw [words, pieces_of_mem_pieces hpiece]
  simpa using hne

/-- Words written with blanks between them are read back. -/
theorem words_join
    {ws : List Text}
    (h : ∀ w ∈ ws, w.words = [w]) :
    (join [' '] ws).words = ws := by
  induction ws with
  | nil => rfl
  | cons w ws ih =>
      have hw : w.words = [w] := h w List.mem_cons_self
      have hrest : (join [' '] ws).words = ws := ih fun v hv => h v (List.mem_cons_of_mem _ hv)
      by_cases hws : ws = []
      · subst hws
        exact hw
      · have hjoin : join [' '] (w :: ws) = w ++ ' ' :: join [' '] ws := by
          rw [join_cons_of_ne_nil _ _ hws]
          simp
        rw [hjoin, words_append_cons (by rfl), hw, hrest]
        rfl

end Text

end ClassLint
