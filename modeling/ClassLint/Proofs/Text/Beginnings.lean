import ClassLint.Text.Basic

/-!
# Beginnings that exclude each other

Two beginnings of one text agree as far as both of them reach.  So where two beginnings
differ in a place that both have, a text with the one of them does not have the other.
This is how entries of different tables keep apart.

**Results.**
* `diverges_eq_false_of_append_eq`: beginnings of one text do not differ.
* `dropLead?_append_of_diverges`: a text with a beginning has no other one that differs from it.
* `any_startsWith_append_of_diverges`, `any_continues_append_of_diverges`: the same for the
  entries of a table.
-/

namespace ClassLint

namespace Text

/-- Whether two texts differ in a place that both have. -/
def diverges : Text → Text → Bool
  | a :: s, b :: t => a != b || diverges s t
  | _, _ => false

theorem diverges_eq_false_of_append_eq
    {s t u v : Text}
    (h : s ++ u = t ++ v) :
    diverges s t = false := by
  induction s generalizing t with
  | nil => rfl
  | cons a s ih =>
      cases t with
      | nil => rfl
      | cons b t =>
          obtain ⟨rfl, hrest⟩ := List.cons_eq_cons.1 h
          simp [diverges, ih hrest]

section Diverging

variable {lead other : Text} (h : diverges lead other = true)
include h

theorem append_ne_append_of_diverges
    (rest tail : Text) :
    lead ++ rest ≠ other ++ tail := by
  intro heq
  rw [diverges_eq_false_of_append_eq heq] at h
  cases h

theorem append_ne_of_diverges
    (rest : Text) :
    lead ++ rest ≠ other := by
  intro heq
  apply append_ne_append_of_diverges h rest []
  rw [heq, List.append_nil]

theorem dropLead?_append_of_diverges
    (rest : Text) :
    dropLead? (lead ++ rest) other = none := by
  rw [Option.eq_none_iff_forall_ne_some]
  intro tail hdrop
  exact append_ne_append_of_diverges h rest tail (dropLead?_eq_some_iff.1 hdrop)

theorem startsWith_append_of_diverges
    (rest : Text) :
    startsWith (lead ++ rest) other = false := by
  rw [startsWith, dropLead?_append_of_diverges h]
  rfl

theorem continues_append_of_diverges
    (rest : Text) :
    continues (lead ++ rest) other = false := by
  rw [continues, dropLead?_append_of_diverges h]

end Diverging

/-- A text with a beginning is no entry of a table whose entries do not have it. -/
theorem contains_append_of_startsWith_eq_false
    {lead : Text} {table : List Text}
    (h : ∀ entry ∈ table, entry.startsWith lead = false)
    (rest : Text) :
    table.contains (lead ++ rest) = false := by
  rw [List.contains_eq_mem, decide_eq_false_iff_not]
  intro hmem
  have hstarts := h _ hmem
  rw [startsWith_append] at hstarts
  cases hstarts

section Tables

variable {lead : Text} {table : List Text} (h : ∀ entry ∈ table, diverges lead entry = true)
include h

theorem any_startsWith_append_of_diverges
    (rest : Text) :
    table.any (startsWith (lead ++ rest)) = false := by
  rw [List.any_eq_false]
  intro entry hentry
  rw [startsWith_append_of_diverges (h entry hentry) rest]
  exact Bool.false_ne_true

theorem any_continues_append_of_diverges
    (rest : Text) :
    table.any (continues (lead ++ rest)) = false := by
  rw [List.any_eq_false]
  intro entry hentry
  rw [continues_append_of_diverges (h entry hentry) rest]
  exact Bool.false_ne_true

end Tables

end Text

end ClassLint
