import ClassLint.Text.Blank

/-!
# Trimming

Blanks at the ends of a text have no influence on its trimmed form, and a beginning
without blanks is kept by trimming.
-/

namespace ClassLint

namespace Text

/-- Whether every character of the text is blank. -/
def IsBlankText (s : Text) : Prop :=
  ∀ c ∈ s, isBlank c = true

theorem isBlankText_nil :
    IsBlankText [] := by
  intro c hc
  cases hc

/-- A text of blanks has no other character in it. -/
theorem IsBlankText.not_mem
    {s : Text} {c : Char}
    (h : IsBlankText s)
    (hc : isBlank c = false) :
    c ∉ s := by
  intro hmem
  rw [h c hmem] at hc
  cases hc

theorem IsBlankText.append
    {s t : Text}
    (hs : IsBlankText s)
    (ht : IsBlankText t) :
    IsBlankText (s ++ t) := by
  intro c hc
  rcases List.mem_append.1 hc with hmem | hmem
  · exact hs c hmem
  · exact ht c hmem

theorem hasBlank_cons_eq_false_iff
    {c : Char} {s : Text} :
    hasBlank (c :: s) = false ↔ isBlank c = false ∧ s.hasBlank = false := by
  unfold hasBlank
  rw [List.any_cons, Bool.or_eq_false_iff]

theorem hasBlank_append
    (s t : Text) :
    hasBlank (s ++ t) = (s.hasBlank || t.hasBlank) :=
  List.any_append

theorem trimTail_append_blanks
    {w : Text}
    (hw : IsBlankText w)
    (s : Text) :
    trimTail (s ++ w) = trimTail s := by
  unfold trimTail
  rw [List.reverse_append, List.dropWhile_append_of_pos]
  intro c hc
  exact hw c (List.mem_reverse.1 hc)

/-- What trimming the end takes away is blank. -/
theorem exists_eq_trimTail_append
    (s : Text) :
    ∃ w, IsBlankText w ∧ s = trimTail s ++ w := by
  refine ⟨(s.reverse.takeWhile isBlank).reverse, ?_, ?_⟩
  · intro c hc
    exact List.all_eq_true.1 List.all_takeWhile c (List.mem_reverse.1 hc)
  · unfold trimTail
    rw [← List.reverse_append, List.takeWhile_append_dropWhile, List.reverse_reverse]

theorem trimTail_trimTail
    (s : Text) :
    trimTail (trimTail s) = trimTail s := by
  obtain ⟨w, hw, hs⟩ := exists_eq_trimTail_append s
  calc
    trimTail (trimTail s) = trimTail (trimTail s ++ w) := (trimTail_append_blanks hw _).symm
    _ = trimTail s := by rw [← hs]

theorem trimTail_cons_of_not_blank
    {c : Char}
    (hc : isBlank c = false)
    (s : Text) :
    trimTail (c :: s) = c :: trimTail s := by
  unfold trimTail
  rw [List.reverse_cons, List.dropWhile_append]
  split
  · next h =>
      rw [List.isEmpty_iff.1 h]
      simp [hc]
  · simp

/-- Trimming the end leaves what stands before a character that is not blank. -/
theorem trimTail_append_cons_of_not_blank
    {c : Char}
    (hc : isBlank c = false)
    (s t : Text) :
    trimTail (s ++ c :: t) = s ++ c :: trimTail t := by
  unfold trimTail
  rw [List.reverse_append, List.reverse_cons, List.append_assoc, List.dropWhile_append]
  split
  · next h =>
      rw [List.isEmpty_iff.1 h]
      simp [hc]
  · simp

theorem trimTail_append_of_hasBlank
    {lead : Text}
    (hlead : lead.hasBlank = false)
    (s : Text) :
    trimTail (lead ++ s) = lead ++ trimTail s := by
  induction lead with
  | nil => rfl
  | cons c lead ih =>
      obtain ⟨hc, hrest⟩ := hasBlank_cons_eq_false_iff.1 hlead
      rw [List.cons_append, trimTail_cons_of_not_blank hc, ih hrest]
      rfl

/-- A beginning without blanks stays where it is. -/
theorem trim_append_of_hasBlank
    {lead : Text}
    (hne : lead ≠ [])
    (hlead : lead.hasBlank = false)
    (s : Text) :
    trim (lead ++ s) = lead ++ trimTail s := by
  have htrimLead : trimLead (lead ++ s) = lead ++ s := by
    cases lead with
    | nil => exact absurd rfl hne
    | cons c lead =>
        have hc := (hasBlank_cons_eq_false_iff.1 hlead).1
        simp [trimLead, hc]
  unfold trim
  rw [htrimLead, trimTail_append_of_hasBlank hlead]

/-- Blanks around a text have no influence on its trimmed form. -/
theorem trim_around
    {before after : Text}
    (hbefore : IsBlankText before)
    (hafter : IsBlankText after)
    (s : Text) :
    trim (before ++ (s ++ after)) = s.trim := by
  unfold trim
  have hlead : trimLead (before ++ (s ++ after)) = trimLead (s ++ after) :=
    List.dropWhile_append_of_pos hbefore
  rw [hlead]
  unfold trimLead
  rw [List.dropWhile_append]
  split
  · next h =>
      have hblank : (after ++ []).dropWhile isBlank = [] := List.dropWhile_append_of_pos hafter
      rw [List.append_nil] at hblank
      rw [List.isEmpty_iff.1 h, hblank]
  · exact trimTail_append_blanks hafter _

/-- What trimming takes away stands around the trimmed text, and is blank. -/
theorem exists_eq_around_trim
    (s : Text) :
    ∃ before after, IsBlankText before ∧ IsBlankText after ∧
      s = before ++ (s.trim ++ after) := by
  obtain ⟨after, hafter, hsplit⟩ := exists_eq_trimTail_append s.trimLead
  refine ⟨s.takeWhile isBlank, after, ?_, hafter, ?_⟩
  · intro c hc
    exact List.all_eq_true.1 List.all_takeWhile c hc
  · calc
      s = s.takeWhile isBlank ++ s.trimLead := List.takeWhile_append_dropWhile.symm
      _ = s.takeWhile isBlank ++ (s.trim ++ after) := by
        rw [trim, ← hsplit]

/-- Between an opening and a closing without blanks nothing is trimmed. -/
theorem trim_enclosed
    {opening : Text} {closing : Char}
    (hne : opening ≠ [])
    (hopening : opening.hasBlank = false)
    (hclosing : isBlank closing = false)
    (inner : Text) :
    trim (opening ++ (inner ++ [closing])) = opening ++ (inner ++ [closing]) := by
  rw [trim_append_of_hasBlank hne hopening, trimTail_append_cons_of_not_blank hclosing]
  rfl

theorem trim_cons_of_not_blank
    {c : Char}
    (hc : isBlank c = false)
    (s : Text) :
    trim (c :: s) = c :: trimTail s := by
  have hlead : hasBlank [c] = false := by
    simp [hasBlank, hc]
  exact trim_append_of_hasBlank (List.cons_ne_nil c []) hlead s

/-- A trimmed text is empty or begins with a character that is not blank. -/
theorem trim_cases
    (s : Text) :
    s.trim = [] ∨ ∃ c rest, isBlank c = false ∧ s.trim = c :: trimTail rest := by
  cases hlead : s.trimLead with
  | nil =>
      left
      rw [trim, hlead]
      rfl
  | cons c rest =>
      right
      have hc : isBlank c = false := by
        have hhead := List.head?_dropWhile_not isBlank s
        rw [← trimLead, hlead] at hhead
        simpa using hhead
      refine ⟨c, rest, hc, ?_⟩
      rw [trim, hlead, trimTail_cons_of_not_blank hc]

theorem trim_trim
    (s : Text) :
    s.trim.trim = s.trim := by
  rcases s.trim_cases with hnil | ⟨c, rest, hc, hcons⟩
  · rw [hnil]
    rfl
  · rw [hcons, trim_cons_of_not_blank hc, trimTail_trimTail]

theorem trim_of_hasBlank
    {s : Text}
    (h : s.hasBlank = false) :
    s.trim = s := by
  cases s with
  | nil => rfl
  | cons c s =>
      have htrim := trim_append_of_hasBlank (List.cons_ne_nil c s) h []
      rw [List.append_nil] at htrim
      rw [htrim]
      exact List.append_nil (c :: s)

end Text

end ClassLint
