import ClassLint.Source.Cursor

/-!
# String literals

A literal stands between two equal quotes.  A backslash takes the next byte with it.  A
literal in single or double quotes does not go on over a line feed, and a template, a
literal in backticks, has no interpolated expression.

Passing over a string is more lenient: it only looks for the closing quote, and without
one the string extends to the end of the source.
-/

namespace ClassLint

/-- The place just past the closing quote of a literal, reading from within it. -/
def closingQuote? (quote : UInt8) (offset : Nat) : List UInt8 → Option Cursor
  | [] => none
  | b :: rest =>
      if b = 0x5C then
        match rest with
        | [] => none
        | _ :: rest => closingQuote? quote (offset + 2) rest
      else if b = 0x0A ∧ quote ≠ 0x60 then none
      else if b = 0x24 ∧ quote = 0x60 ∧ rest.head? = some 0x7B then none
      else if b = quote then some ⟨offset + 1, rest⟩
      else closingQuote? quote (offset + 1) rest

/-- The place just past a string, reading from within it. -/
def skipString (quote : UInt8) (offset : Nat) : List UInt8 → Cursor
  | [] => ⟨offset, []⟩
  | b :: rest =>
      if b = 0x5C then
        match rest with
        | [] => ⟨offset + 1, []⟩
        | _ :: rest => skipString quote (offset + 2) rest
      else if b = quote then ⟨offset + 1, rest⟩
      else skipString quote (offset + 1) rest

theorem skipString_rest_length_le
    (quote : UInt8) (offset : Nat) (rest : List UInt8) :
    (skipString quote offset rest).rest.length ≤ rest.length := by
  fun_induction skipString quote offset rest <;> simp_all <;> omega

namespace Cursor

/-- The content of the literal that opens at the cursor, and the place just past the literal. -/
def literal? (c : Cursor) : Option (Span × Cursor) :=
  match c.rest with
  | [] => none
  | quote :: rest =>
      if Byte.isQuote quote then
        (closingQuote? quote (c.offset + 1) rest).map fun past =>
          (⟨c.offset + 1, past.offset - 1⟩, past)
      else none

end Cursor

theorem closingQuote?_rest_length_le
    {quote : UInt8} {offset : Nat} {rest : List UInt8} {past : Cursor}
    (h : closingQuote? quote offset rest = some past) :
    past.rest.length ≤ rest.length := by
  fun_induction closingQuote? quote offset rest <;> simp_all
  · omega
  · subst h
    simp
  · omega

theorem Cursor.literal?_rest_length_lt
    {c : Cursor} {content : Span} {past : Cursor}
    (h : c.literal? = some (content, past)) :
    past.rest.length < c.rest.length := by
  obtain ⟨offset, rest⟩ := c
  cases rest with
  | nil => simp [Cursor.literal?] at h
  | cons quote rest =>
      simp only [Cursor.literal?] at h
      split at h
      · obtain ⟨p, hp, hq⟩ := Option.map_eq_some_iff.1 h
        cases hq
        have := closingQuote?_rest_length_le hp
        simp
        omega
      · simp at h

end ClassLint
