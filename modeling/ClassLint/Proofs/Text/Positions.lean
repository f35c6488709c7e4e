import ClassLint.Proofs.Text.Bytes

/-!
# Positions in a text

A position is found in one pass over the text before it.  There are two other ways to
read it: from a table of the offsets at which lines begin, and by cutting the text into its
lines.  All of them agree at every place between two characters.

**Results.**
* `Position.isBefore_after`: what comes later in a text has a later position.
* `Text.positionAt?_append`: the table of lines gives the position of the pass.
* `Text.fromPosition?_after`: the text at a position is the text after the pass.
-/

namespace ClassLint

namespace Position

/-- The position after some more characters. -/
def after (p : Position) (t : Text) : Position :=
  t.foldl step p

@[simp] theorem after_nil
    (p : Position) :
    p.after [] = p := by
  rfl

@[simp] theorem after_cons
    (p : Position) (c : Char) (t : Text) :
    p.after (c :: t) = (p.step c).after t := by
  rfl

theorem after_append
    (p : Position) (s t : Text) :
    p.after (s ++ t) = (p.after s).after t := by
  exact List.foldl_append

theorem advance_append
    (p : Position) (left right : Text) :
    p.advance left.bytes.length (left ++ right) = (p.after left, right) := by
  induction left generalizing p with
  | nil => cases right <;> rfl
  | cons c left ih =>
      have hpos := c.utf8Size_pos
      have hne : (Text.bytes (c :: left)).length ≠ 0 := by
        rw [Text.length_bytes_cons]
        omega
      have hrest : (Text.bytes (c :: left)).length - c.utf8Size = (Text.bytes left).length := by
        rw [Text.length_bytes_cons]
        omega
      simp only [List.cons_append, advance, if_neg hne, hrest, ih, after_cons]

/-- The order of positions by line and then by column. -/
def IsBefore (p q : Position) : Prop :=
  p.line < q.line ∨ p.line = q.line ∧ p.column < q.column

theorem IsBefore.trans
    {p q r : Position}
    (hpq : p.IsBefore q)
    (hqr : q.IsBefore r) :
    p.IsBefore r := by
  unfold IsBefore at *
  omega

theorem isBefore_step
    (p : Position) (c : Char) :
    p.IsBefore (p.step c) := by
  unfold IsBefore step
  split
  · exact Or.inl (Nat.lt_succ_self _)
  · exact Or.inr ⟨rfl, Nat.lt_succ_self _⟩

theorem isBefore_after
    (p : Position) {t : Text}
    (h : t ≠ []) :
    p.IsBefore (p.after t) := by
  induction t generalizing p with
  | nil => exact absurd rfl h
  | cons c t ih =>
      rw [after_cons]
      by_cases ht : t = []
      · subst ht
        exact p.isBefore_step c
      · exact (p.isBefore_step c).trans (ih (p.step c) ht)

theorem line_after
    (p : Position) (t : Text) :
    (p.after t).line = p.line + t.count '\n' := by
  induction t generalizing p with
  | nil => rfl
  | cons c t ih =>
      rw [after_cons, ih, List.count_cons]
      unfold step
      by_cases hc : c = '\n'
      · simp [hc]
        omega
      · simp [hc]

theorem column_after_pos
    {p : Position}
    (h : 0 < p.column)
    (t : Text) :
    0 < (p.after t).column := by
  induction t generalizing p with
  | nil => exact h
  | cons c t ih =>
      refine ih ?_
      unfold step
      split
      · exact Nat.one_pos
      · exact Nat.succ_pos _

/-- Within a line only the column goes on. -/
theorem after_of_not_mem
    (p : Position) {line : Text}
    (h : '\n' ∉ line) :
    p.after line = ⟨p.line, p.column + line.length⟩ := by
  induction line generalizing p with
  | nil => rfl
  | cons c line ih =>
      obtain ⟨hc, hline⟩ := not_or.1 (mt List.mem_cons.2 h)
      have hc : c ≠ '\n' := fun e => hc e.symm
      rw [after_cons, ih _ hline]
      simp only [step, if_neg hc, List.length_cons]
      congr 1
      omega

/-- A line feed begins the next line. -/
theorem after_lineFeed
    (p : Position) (above : Text) {line : Text}
    (h : '\n' ∉ line) :
    p.after (above ++ '\n' :: line) =
      ⟨p.line + above.count '\n' + 1, line.length + 1⟩ := by
  rw [after_append, after_cons, after_of_not_mem _ h]
  have hstep : (p.after above).step '\n' = ⟨(p.after above).line + 1, 1⟩ := rfl
  rw [hstep, line_after, Nat.add_comm 1]

end Position

namespace Text

/-- A text is a single line, or a last line stands after its last line feed. -/
theorem lastLine_cases
    (s : Text) :
    '\n' ∉ s ∨ ∃ above line : Text, s = above ++ '\n' :: line ∧ '\n' ∉ line := by
  induction s with
  | nil => exact Or.inl List.not_mem_nil
  | cons c s ih =>
      rcases ih with hs | ⟨above, line, rfl, hline⟩
      · by_cases hc : c = '\n'
        · exact Or.inr ⟨[], s, by rw [hc, List.nil_append], hs⟩
        · exact Or.inl fun h => (List.mem_cons.1 h).elim (fun e => hc e.symm) hs
      · exact Or.inr ⟨c :: above, line, rfl, hline⟩

/-! ## The table of lines -/

/-- The offsets just past the line feeds of a text that begins at the given offset. -/
def lineStartsFrom (offset : Nat) : Text → List Nat
  | [] => []
  | c :: s =>
      let past := offset + c.utf8Size
      if c = '\n' then past :: lineStartsFrom past s else lineStartsFrom past s

/-- The offsets at which the lines of a text begin. -/
def lineStarts (s : Text) : List Nat :=
  0 :: lineStartsFrom 0 s

/-- The position of a byte offset: its line is the last one that begins at or before it, and its
column counts the characters from there, which have to be cut out of the text. -/
def positionAt? (s : Text) (offset : Nat) : Option Position :=
  let begun := s.lineStarts.takeWhile (· ≤ offset)
  (s.slice? (begun.getLast?.getD 0) offset).map fun head => ⟨begun.length, head.length + 1⟩

theorem lineStartsFrom_append
    (offset : Nat) (s t : Text) :
    lineStartsFrom offset (s ++ t) =
      lineStartsFrom offset s ++ lineStartsFrom (offset + s.bytes.length) t := by
  induction s generalizing offset with
  | nil => rfl
  | cons c s ih =>
      have hlength : offset + c.utf8Size + (bytes s).length = offset + (bytes (c :: s)).length := by
        rw [length_bytes_cons]
        omega
      simp only [List.cons_append, lineStartsFrom, ih, hlength]
      split <;> rfl

theorem mem_lineStartsFrom
    {offset start : Nat} {s : Text}
    (h : start ∈ lineStartsFrom offset s) :
    offset < start ∧ start ≤ offset + s.bytes.length := by
  induction s generalizing offset with
  | nil => exact absurd h List.not_mem_nil
  | cons c s ih =>
      have hpos := c.utf8Size_pos
      rw [length_bytes_cons]
      simp only [lineStartsFrom] at h
      split at h
      · rcases List.mem_cons.1 h with rfl | h
        · omega
        · have := ih h
          omega
      · have := ih h
        omega

theorem length_lineStartsFrom
    (offset : Nat) (s : Text) :
    (lineStartsFrom offset s).length = s.count '\n' := by
  induction s generalizing offset with
  | nil => rfl
  | cons c s ih =>
      simp only [lineStartsFrom]
      by_cases hc : c = '\n' <;> simp [hc, ih]

theorem lineStartsFrom_of_not_mem
    (offset : Nat) {line : Text}
    (h : '\n' ∉ line) :
    lineStartsFrom offset line = [] := by
  have hcount := length_lineStartsFrom offset line
  rw [List.count_eq_zero_of_not_mem h] at hcount
  exact List.eq_nil_of_length_eq_zero hcount

/-- The lines that begin at or before the end of a first part are the lines of that part. -/
theorem takeWhile_lineStarts
    (left right : Text) :
    (lineStarts (left ++ right)).takeWhile (· ≤ left.bytes.length) = left.lineStarts := by
  have hleft : ∀ start ∈ left.lineStarts, decide (start ≤ left.bytes.length) = true := by
    intro start h
    rcases List.mem_cons.1 h with rfl | h
    · exact decide_eq_true (Nat.zero_le _)
    · have := mem_lineStartsFrom h
      exact decide_eq_true (by omega)
  have hright : (lineStartsFrom (0 + left.bytes.length) right).takeWhile
      (· ≤ left.bytes.length) = [] := by
    cases hstarts : lineStartsFrom (0 + left.bytes.length) right with
    | nil => rfl
    | cons start starts =>
        have hmem : start ∈ lineStartsFrom (0 + left.bytes.length) right := by
          rw [hstarts]
          exact List.mem_cons_self
        have hlate := (mem_lineStartsFrom hmem).1
        exact List.takeWhile_cons_of_neg (by simp; omega)
  have hsplit : lineStarts (left ++ right) =
      left.lineStarts ++ lineStartsFrom (0 + left.bytes.length) right := by
    simp only [lineStarts, lineStartsFrom_append, List.cons_append]
  rw [hsplit, List.takeWhile_append_of_pos hleft, hright, List.append_nil]

theorem positionAt?_append
    (left right : Text) :
    positionAt? (left ++ right) left.bytes.length = some (Position.first.after left) := by
  unfold positionAt?
  simp only [takeWhile_lineStarts]
  rcases left.lastLine_cases with h | ⟨above, line, rfl, h⟩
  · have hslice : slice? (left ++ right) 0 left.bytes.length = some left :=
      slice?_eq_some_iff.2 ⟨[], right, rfl, rfl, (Nat.zero_add _).symm⟩
    rw [Position.after_of_not_mem _ h]
    simp [lineStarts, lineStartsFrom_of_not_mem _ h, hslice, Position.first, Nat.add_comm]
  · have hstarts : lineStarts (above ++ '\n' :: line) =
        above.lineStarts ++ [(above ++ ['\n']).bytes.length] := by
      have hpast : 0 + above.bytes.length + '\n'.utf8Size = (above ++ ['\n']).bytes.length := by
        simp
      simp only [lineStarts, lineStartsFrom_append, lineStartsFrom, if_pos,
        lineStartsFrom_of_not_mem _ h, List.cons_append, hpast]
    have hslice : slice? (above ++ '\n' :: line ++ right) (above ++ ['\n']).bytes.length
        (above ++ '\n' :: line).bytes.length = some line := by
      refine slice?_eq_some_iff.2 ⟨above ++ ['\n'], right, by simp, rfl, ?_⟩
      simp only [bytes_append, bytes_cons, bytes_nil, List.length_append, List.length_nil]
      omega
    rw [Position.after_lineFeed _ _ h, hstarts, List.getLast?_concat, Option.getD_some, hslice]
    have hlength : (above.lineStarts ++ [(above ++ ['\n']).bytes.length]).length =
        Position.first.line + above.count '\n' + 1 := by
      simp [lineStarts, length_lineStartsFrom, Position.first, Nat.add_comm]
    rw [hlength]
    rfl

/-! ## The text at a position -/

/-- The pieces of a text between its line feeds. -/
def lines (s : Text) : List Text :=
  s.pieces (· == '\n')

/-- The text from a position on: its line without the characters before its column, and the lines
that follow. -/
def fromPosition? (s : Text) (p : Position) : Option Text :=
  match s.lines.drop (p.line - 1) with
  | [] => none
  | line :: following =>
      if p.column - 1 ≤ line.length then
        some (join ['\n'] (line.drop (p.column - 1) :: following))
      else none

theorem lines_ne_nil
    (s : Text) :
    s.lines ≠ [] := by
  exact pieces_ne_nil _ s

theorem join_lines
    (s : Text) :
    join ['\n'] s.lines = s := by
  induction s with
  | nil => rfl
  | cons c s ih =>
      by_cases hc : c = '\n'
      · have hlines : lines (c :: s) = [] :: lines s := by simp [lines, pieces, hc]
        rw [hlines, join_cons_of_ne_nil _ _ (lines_ne_nil s), ih, hc]
        rfl
      · have hlines : lines (c :: s) = (lines s).modifyHead (List.cons c) := by
          simp [lines, pieces, hc]
        rw [hlines, join_modifyHead_cons _ _ (lines_ne_nil s), ih]

theorem length_lines
    (s : Text) :
    s.lines.length = s.count '\n' + 1 := by
  induction s with
  | nil => rfl
  | cons c s ih =>
      have ih : (pieces (· == '\n') s).length = s.count '\n' + 1 := ih
      by_cases hc : c = '\n' <;> simp [lines, pieces, hc, ih]

theorem lines_append_lineFeed
    (above below : Text) :
    lines (above ++ '\n' :: below) = above.lines ++ below.lines := by
  exact pieces_append_cons (by rfl) above below

/-- What has no line feed goes in front of the first line of what follows. -/
theorem lines_append_of_not_mem
    {line s first : Text} {following : List Text}
    (h : '\n' ∉ line)
    (hs : s.lines = first :: following) :
    lines (line ++ s) = (line ++ first) :: following := by
  induction line with
  | nil => exact hs
  | cons c line ih =>
      obtain ⟨hc, hline⟩ := not_or.1 (mt List.mem_cons.2 h)
      have hc : c ≠ '\n' := fun e => hc e.symm
      have ih : pieces (· == '\n') (line ++ s) = (line ++ first) :: following := ih hline
      simp [lines, pieces, hc, ih]

theorem fromPosition?_after
    (left right : Text) :
    fromPosition? (left ++ right) (Position.first.after left) = some right := by
  obtain ⟨first, following, hright⟩ := List.exists_cons_of_ne_nil right.lines_ne_nil
  have hdrop (line : Text) : (line ++ first).drop line.length = first := List.drop_left
  have hle (line : Text) : line.length ≤ (line ++ first).length := by simp
  have hjoin : join ['\n'] (first :: following) = right := by rw [← hright, join_lines]
  unfold fromPosition?
  rcases left.lastLine_cases with h | ⟨above, line, rfl, h⟩
  · rw [Position.after_of_not_mem _ h, lines_append_of_not_mem h hright]
    simp [Position.first, hjoin]
  · have hlines : lines (above ++ '\n' :: line ++ right) =
        above.lines ++ (line ++ first) :: following := by
      rw [List.append_assoc, List.cons_append, lines_append_lineFeed,
        lines_append_of_not_mem h hright]
    have hskip : (lines (above ++ '\n' :: line ++ right)).drop (above.count '\n' + 1) =
        (line ++ first) :: following := by
      rw [hlines, ← length_lines, List.drop_left]
    rw [Position.after_lineFeed _ _ h]
    have hline : Position.first.line + above.count '\n' + 1 - 1 = above.count '\n' + 1 := by
      simp only [Position.first]
      omega
    simp only [hline, hskip, Nat.add_sub_cancel, if_pos (hle line), hdrop line, hjoin]

end Text

end ClassLint
