/-!
# Text as a list of characters

The linter reads text one character at a time, so a text is a list of
characters and strings appear only where text enters or leaves the program.

This module cuts text: a fixed beginning, a fixed ending, the pieces between
separators, and the two parts around the first or the last occurrence of a
character.  Every cut comes with the equation that puts the text together again.
-/

namespace ClassLint

/-- A text, character by character. -/
abbrev Text := List Char

namespace Text

/-- The texts of some strings. -/
def ofStrings (strings : List String) : List Text :=
  strings.map String.toList

/-- What follows the given beginning, if the text begins with it. -/
def dropLead? : Text → Text → Option Text
  | s, [] => some s
  | [], _ :: _ => none
  | c :: s, b :: bs => if b = c then dropLead? s bs else none

theorem dropLead?_eq_some_iff
    {s lead rest : Text} :
    s.dropLead? lead = some rest ↔ s = lead ++ rest := by
  induction lead generalizing s with
  | nil => simp [dropLead?]
  | cons b bs ih =>
      cases s with
      | nil => simp [dropLead?]
      | cons c s =>
          by_cases h : b = c
          · subst h
            simp [dropLead?, ih]
          · have h' : ¬ c = b := fun e => h e.symm
            simp [dropLead?, h, h']

theorem dropLead?_cons_of_ne
    {b c : Char}
    (h : b ≠ c)
    (bs s : Text) :
    dropLead? (c :: s) (b :: bs) = none :=
  if_neg h

/-- What precedes the given ending, if the text ends with it. -/
def dropTail? (s tail : Text) : Option Text :=
  (dropLead? s.reverse tail.reverse).map List.reverse

theorem dropTail?_eq_some_iff
    {s tail rest : Text} :
    s.dropTail? tail = some rest ↔ s = rest ++ tail := by
  simp only [dropTail?, Option.map_eq_some_iff, dropLead?_eq_some_iff]
  constructor
  · rintro ⟨r, h, rfl⟩
    simpa using congrArg List.reverse h
  · rintro rfl
    exact ⟨rest.reverse, by simp, by simp⟩

/-- Whether the text begins with the given one. -/
def startsWith (s lead : Text) : Bool :=
  (s.dropLead? lead).isSome

theorem startsWith_iff
    {s lead : Text} :
    s.startsWith lead = true ↔ ∃ rest, s = lead ++ rest := by
  simp [startsWith, Option.isSome_iff_exists, dropLead?_eq_some_iff]

theorem startsWith_append
    (lead s : Text) :
    startsWith (lead ++ s) lead = true :=
  startsWith_iff.2 ⟨s, rfl⟩

theorem startsWith_cons_of_ne
    {b c : Char}
    (h : b ≠ c)
    (bs s : Text) :
    startsWith (c :: s) (b :: bs) = false := by
  unfold startsWith
  rw [dropLead?_cons_of_ne h]
  rfl

/-- A character that is not in a beginning does not complete it. -/
theorem startsWith_append_singleton
    {c : Char} {lead : Text}
    (h : c ∉ lead)
    (s : Text) :
    startsWith (s ++ [c]) lead = startsWith s lead := by
  induction lead generalizing s with
  | nil => simp [startsWith, dropLead?]
  | cons b lead ih =>
      have hne : b ≠ c := fun e => h (e ▸ List.mem_cons_self)
      have hrest : c ∉ lead := fun hmem => h (List.mem_cons_of_mem b hmem)
      cases s with
      | nil => exact startsWith_cons_of_ne hne lead []
      | cons a s =>
          by_cases hab : b = a
          · subst hab
            have hstep : startsWith (s ++ [c]) lead = startsWith s lead := ih hrest s
            simpa [startsWith, dropLead?] using hstep
          · rw [List.cons_append, startsWith_cons_of_ne hab, startsWith_cons_of_ne hab]

/-- Whether the text begins with the given one and goes on after it. -/
def continues (s lead : Text) : Bool :=
  match s.dropLead? lead with
  | some (_ :: _) => true
  | _ => false

theorem continues_iff
    {s lead : Text} :
    s.continues lead = true ↔ ∃ c rest, s = lead ++ c :: rest := by
  unfold continues
  constructor
  · intro h
    split at h
    · next c rest hdrop => exact ⟨c, rest, dropLead?_eq_some_iff.1 hdrop⟩
    · cases h
  · rintro ⟨c, rest, rfl⟩
    rw [dropLead?_eq_some_iff.2 rfl]

theorem startsWith_of_continues
    {s lead : Text}
    (h : s.continues lead = true) :
    s.startsWith lead = true := by
  obtain ⟨c, rest, rfl⟩ := continues_iff.1 h
  exact startsWith_append lead (c :: rest)

/-- Whether the given text occurs somewhere in the text. -/
def hasInside : Text → Text → Bool
  | [], inner => inner.isEmpty
  | c :: s, inner => startsWith (c :: s) inner || hasInside s inner

/-- Nothing occurs in a text that lacks one of its characters. -/
theorem hasInside_eq_false_of_not_mem
    {c : Char} {s inner : Text}
    (hinner : c ∈ inner)
    (hs : c ∉ s) :
    s.hasInside inner = false := by
  induction s with
  | nil =>
      cases inner with
      | nil => cases hinner
      | cons b bs => rfl
  | cons b s ih =>
      have hstarts : startsWith (b :: s) inner = false := by
        rw [← Bool.not_eq_true]
        intro h
        obtain ⟨rest, hsplit⟩ := startsWith_iff.1 h
        apply hs
        rw [hsplit]
        exact List.mem_append_left rest hinner
      have hrest : hasInside s inner = false :=
        ih fun hmem => hs (List.mem_cons_of_mem b hmem)
      rw [hasInside, hstarts, hrest]
      rfl

/-- What does not begin in the front of a text occurs in the rest of it, if at all. -/
theorem hasInside_append_of_not_mem
    {b : Char} {lead : Text}
    (h : b ∉ lead)
    (bs s : Text) :
    hasInside (lead ++ s) (b :: bs) = hasInside s (b :: bs) := by
  induction lead with
  | nil => rfl
  | cons c lead ih =>
      have hne : b ≠ c := fun e => h (e ▸ List.mem_cons_self)
      have hrest : b ∉ lead := fun hmem => h (List.mem_cons_of_mem c hmem)
      rw [List.cons_append, hasInside, ih hrest]
      simp [startsWith, dropLead?, hne]

/-- The text between two given ends, if it has both of them one after the other. -/
def between? (s lead tail : Text) : Option Text :=
  (s.dropLead? lead).bind fun rest => rest.dropTail? tail

theorem between?_eq_some_iff
    {s lead tail inner : Text} :
    s.between? lead tail = some inner ↔ s = lead ++ (inner ++ tail) := by
  simp only [between?, Option.bind_eq_some_iff, dropLead?_eq_some_iff,
    dropTail?_eq_some_iff]
  constructor
  · rintro ⟨r, rfl, rfl⟩
    rfl
  · rintro rfl
    exact ⟨inner ++ tail, rfl, rfl⟩

/-- The text without the given beginning, where it has it. -/
def withoutLead (s lead : Text) : Text :=
  (s.dropLead? lead).getD s

/-- A text has the given beginning and loses it, or it stays as it is. -/
theorem withoutLead_cases
    (s lead : Text) :
    s = lead ++ s.withoutLead lead ∨ s.dropLead? lead = none ∧ s.withoutLead lead = s := by
  unfold withoutLead
  cases h : s.dropLead? lead with
  | none => exact Or.inr ⟨rfl, rfl⟩
  | some rest => exact Or.inl (dropLead?_eq_some_iff.1 h)

theorem withoutLead_append
    (lead s : Text) :
    withoutLead (lead ++ s) lead = s := by
  unfold withoutLead
  rw [dropLead?_eq_some_iff.2 rfl]
  rfl

theorem withoutLead_cons_of_ne
    {b c : Char}
    (h : b ≠ c)
    (bs s : Text) :
    withoutLead (c :: s) (b :: bs) = c :: s := by
  unfold withoutLead
  rw [dropLead?_cons_of_ne h]
  rfl

/-- The pieces between the characters that satisfy the test; there is always at least one piece. -/
def pieces (isSeparator : Char → Bool) : Text → List Text
  | [] => [[]]
  | c :: s =>
      if isSeparator c then [] :: pieces isSeparator s
      else (pieces isSeparator s).modifyHead (List.cons c)

theorem pieces_ne_nil
    (isSeparator : Char → Bool) (s : Text) :
    pieces isSeparator s ≠ [] := by
  induction s with
  | nil => simp [pieces]
  | cons c s ih =>
      simp only [pieces]
      split
      · simp
      · cases h : pieces isSeparator s with
        | nil => exact absurd h ih
        | cons piece rest => simp

/-- A separator ends the pieces of what precedes it. -/
theorem pieces_append_cons
    {isSeparator : Char → Bool} {c : Char}
    (h : isSeparator c = true)
    (s t : Text) :
    pieces isSeparator (s ++ c :: t) = pieces isSeparator s ++ pieces isSeparator t := by
  induction s with
  | nil => simp [pieces, h]
  | cons b s ih =>
      simp only [List.cons_append, pieces, ih]
      split
      · rfl
      · cases hs : pieces isSeparator s with
        | nil => exact absurd hs (pieces_ne_nil isSeparator s)
        | cons piece rest => rfl

theorem pieces_of_all_not
    {isSeparator : Char → Bool} {s : Text}
    (h : ∀ c ∈ s, isSeparator c = false) :
    pieces isSeparator s = [s] := by
  induction s with
  | nil => rfl
  | cons c s ih =>
      have hc : ¬ isSeparator c = true := Bool.eq_false_iff.1 (h c List.mem_cons_self)
      rw [pieces, if_neg hc, ih fun b hb => h b (List.mem_cons_of_mem c hb)]
      rfl

/-- A piece has no separator in it, so it is its only piece. -/
theorem pieces_of_mem_pieces
    {isSeparator : Char → Bool} {s piece : Text}
    (h : piece ∈ pieces isSeparator s) :
    pieces isSeparator piece = [piece] := by
  induction s generalizing piece with
  | nil =>
      obtain rfl := List.mem_singleton.1 h
      rfl
  | cons c s ih =>
      rw [pieces] at h
      split at h
      · rcases List.mem_cons.1 h with rfl | hlater
        · rfl
        · exact ih hlater
      · next hc =>
          cases hs : pieces isSeparator s with
          | nil => exact absurd hs (pieces_ne_nil isSeparator s)
          | cons first rest =>
              rw [hs] at h ih
              rcases List.mem_cons.1 h with rfl | hlater
              · rw [pieces, if_neg hc, ih List.mem_cons_self]
                rfl
              · exact ih (List.mem_cons_of_mem _ hlater)

/-- The parts before and after the first occurrence of a character. -/
def cutAtFirst? (mark : Char) : Text → Option (Text × Text)
  | [] => none
  | c :: s =>
      if c = mark then some ([], s)
      else (cutAtFirst? mark s).map fun (left, right) => (c :: left, right)

theorem append_of_cutAtFirst?
    {mark : Char} {s left right : Text}
    (h : cutAtFirst? mark s = some (left, right)) :
    s = left ++ mark :: right := by
  induction s generalizing left with
  | nil => simp [cutAtFirst?] at h
  | cons c s ih =>
      simp only [cutAtFirst?] at h
      split at h
      · next hc =>
          cases h
          simp [hc]
      · obtain ⟨p, hp, hq⟩ := Option.map_eq_some_iff.1 h
        cases hq
        simp [ih hp]

/-- The parts before and after the last occurrence of a character. -/
def cutAtLast? (mark : Char) : Text → Option (Text × Text)
  | [] => none
  | c :: s =>
      match cutAtLast? mark s with
      | some (left, right) => some (c :: left, right)
      | none => if c = mark then some ([], s) else none

theorem append_of_cutAtLast?
    {mark : Char} {s left right : Text}
    (h : cutAtLast? mark s = some (left, right)) :
    s = left ++ mark :: right := by
  induction s generalizing left with
  | nil => simp [cutAtLast?] at h
  | cons c s ih =>
      simp only [cutAtLast?] at h
      split at h
      · next l r hcut =>
          cases h
          simp [ih hcut]
      · split at h
        · next hc =>
            cases h
            simp [hc]
        · cases h

/-- The part before the first occurrence of a character, or the whole text. -/
def upTo (mark : Char) (s : Text) : Text :=
  s.takeWhile (· != mark)

theorem upTo_of_not_mem
    {mark : Char} {s : Text}
    (h : mark ∉ s) :
    s.upTo mark = s := by
  induction s with
  | nil => rfl
  | cons c s ih =>
      have hne : c ≠ mark := fun e => h (e ▸ List.mem_cons_self)
      have hrest : upTo mark s = s := ih fun hmem => h (List.mem_cons_of_mem c hmem)
      simpa [upTo, hne] using hrest

theorem upTo_append_cons
    (mark : Char) (s t : Text) :
    upTo mark (s ++ mark :: t) = upTo mark s := by
  induction s with
  | nil => simp [upTo]
  | cons c s ih =>
      unfold upTo at ih ⊢
      rw [List.cons_append, List.takeWhile_cons, List.takeWhile_cons, ih]

theorem not_mem_upTo
    (mark : Char) (s : Text) :
    mark ∉ s.upTo mark := by
  intro hmem
  have hne := List.all_eq_true.1 (List.all_takeWhile (l := s)) mark hmem
  simp at hne

/-- What the cut leaves out is nothing, or the character and what follows it. -/
theorem upTo_cases
    (mark : Char) (s : Text) :
    s = s.upTo mark ∨ ∃ rest, s = s.upTo mark ++ mark :: rest := by
  by_cases h : mark ∈ s
  · obtain ⟨front, rest, rfl, hfront⟩ := List.eq_append_cons_of_mem h
    refine Or.inr ⟨rest, ?_⟩
    rw [upTo_append_cons, upTo_of_not_mem hfront]
  · exact Or.inl (upTo_of_not_mem h).symm

/-- A beginning without the character is kept by the cut. -/
theorem startsWith_upTo
    {mark : Char} {lead : Text}
    (h : mark ∉ lead)
    (s : Text) :
    startsWith (s.upTo mark) lead = s.startsWith lead := by
  rw [Bool.eq_iff_iff, startsWith_iff, startsWith_iff]
  constructor
  · rintro ⟨rest, hrest⟩
    rcases upTo_cases mark s with hwhole | ⟨tail, hcut⟩
    · exact ⟨rest, hwhole.trans hrest⟩
    · refine ⟨rest ++ mark :: tail, ?_⟩
      rw [hcut, hrest, List.append_assoc]
  · rintro ⟨rest, rfl⟩
    refine ⟨rest.upTo mark, ?_⟩
    unfold upTo
    rw [List.takeWhile_append_of_pos]
    intro c hc
    simpa using fun e : c = mark => h (e ▸ hc)

/-- The text with its ASCII letters in lower case. -/
def lower (s : Text) : Text :=
  s.map Char.toLower

theorem lower_append
    (s t : Text) :
    lower (s ++ t) = s.lower ++ t.lower :=
  List.map_append

/-- The texts one after the other with a separator between neighbours. -/
def join (separator : Text) : List Text → Text
  | [] => []
  | [s] => s
  | s :: rest => s ++ separator ++ join separator rest

theorem join_cons_of_ne_nil
    (separator s : Text) {rest : List Text}
    (h : rest ≠ []) :
    join separator (s :: rest) = s ++ separator ++ join separator rest := by
  cases rest with
  | nil => exact absurd rfl h
  | cons t rest => rfl

theorem join_modifyHead_cons
    (separator : Text) (c : Char) {parts : List Text}
    (h : parts ≠ []) :
    join separator (parts.modifyHead (List.cons c)) = c :: join separator parts := by
  cases parts with
  | nil => exact absurd rfl h
  | cons s rest => cases rest <;> simp [join]

theorem join_append_singleton
    (separator s : Text) {parts : List Text}
    (h : parts ≠ []) :
    join separator (parts ++ [s]) = join separator parts ++ separator ++ s := by
  induction parts with
  | nil => exact absurd rfl h
  | cons t rest ih =>
      by_cases hrest : rest = []
      · subst hrest
        rfl
      · rw [List.cons_append, join_cons_of_ne_nil separator t (by simp), ih hrest,
          join_cons_of_ne_nil separator t hrest]
        simp only [List.append_assoc]

end Text

end ClassLint
