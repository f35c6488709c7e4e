import ClassLint.Proofs.Source.AttributeGrammar
import Mathlib.Data.List.Forall2

/-!
# The text of arguments

Between the parentheses of a call stand bytes that mean nothing, strings, and parentheses that are
closed again.  Both searches of a call pass over such a text as a whole: the one for the closing
parenthesis is as deep behind it as in front of it, and the one for literals has found the contents
of its strings, as far as they are literals.

A string ends at the first quote equal to its opening one that no backslash takes with it.  Nothing
else is asked of it, so a string may have an interpolated expression in it, and it ends at the next
backtick even where that one opens another template.

**Results.**
* `skipString_of_stringContent`: where a string ends.
* `closingParen?_argumentText`: the search for the closing parenthesis passes over an argument text.
* `literalsUntil_argumentText`: the literals that are found in an argument text.
-/

namespace ClassLint

/-! ## Contents of strings -/

/-- The bytes can stand between two of the given quotes: none of them closes the string. -/
inductive StringContent (quote : UInt8) : List UInt8 → Prop
  | empty :
      StringContent quote []
  | escaped
      (b : UInt8) {content : List UInt8}
      (hcontent : StringContent quote content) :
      StringContent quote (Byte.ofAscii '\\' :: b :: content)
  | plain
      {b : UInt8} {content : List UInt8}
      (hescape : b ≠ Byte.ofAscii '\\')
      (hquote : b ≠ quote)
      (hcontent : StringContent quote content) :
      StringContent quote (b :: content)

theorem LiteralContent.stringContent
    {quote : UInt8} {content : List UInt8}
    (h : LiteralContent quote content) :
    StringContent quote content := by
  induction h with
  | empty => exact .empty
  | escaped b _ ih => exact .escaped b ih
  | plain hescape hquote _ _ _ ih => exact .plain hescape hquote ih

theorem StringContent.append
    {quote : UInt8} {content more : List UInt8}
    (h : StringContent quote content)
    (hmore : StringContent quote more) :
    StringContent quote (content ++ more) := by
  induction h with
  | empty => exact hmore
  | escaped b _ ih => exact .escaped b ih
  | plain hescape hquote _ ih => exact .plain hescape hquote ih

theorem LiteralContent.of_escaped
    {quote b : UInt8} {content : List UInt8}
    (h : LiteralContent quote (Byte.ofAscii '\\' :: b :: content)) :
    LiteralContent quote content := by
  cases h with
  | escaped _ hcontent => exact hcontent
  | plain hescape _ _ _ _ => exact absurd rfl hescape

theorem LiteralContent.of_plain
    {quote b : UInt8} {content : List UInt8}
    (hb : b ≠ Byte.ofAscii '\\')
    (h : LiteralContent quote (b :: content)) :
    LiteralContent quote content := by
  cases h with
  | escaped _ _ => exact absurd rfl hb
  | plain _ _ _ _ hcontent => exact hcontent

theorem skipString_cons_of_ne
    {b : UInt8}
    (h : b ≠ 0x5C)
    (quote : UInt8) (offset : Nat) (rest : List UInt8) :
    skipString quote offset (b :: rest) =
      if b = quote then ⟨offset + 1, rest⟩ else skipString quote (offset + 1) rest := by
  rw [skipString.eq_def]
  simp only [if_neg h]

section Quotes

variable {quote : UInt8} (hquote : Byte.isQuote quote = true)
include hquote

/-- Behind the content of a string its closing quote is passed. -/
theorem skipString_of_stringContent
    {content : List UInt8}
    (hcontent : StringContent quote content)
    (offset : Nat) (rest : List UInt8) :
    skipString quote offset (content ++ quote :: rest) = ⟨offset + content.length + 1, rest⟩ := by
  induction hcontent generalizing offset with
  | empty =>
      rw [List.nil_append, skipString_cons_of_ne (Byte.ne_of_isQuote hquote).1, if_pos rfl]
      rfl
  | @escaped b content _ ih =>
      have hoffset : offset + 2 + content.length = offset + (content.length + 1 + 1) := by omega
      simp [skipString, Byte.ofAscii, ih, hoffset]
  | @plain b content hescape hopen _ ih =>
      have hescape' : b ≠ 0x5C := hescape
      have hoffset : offset + 1 + content.length = offset + (content.length + 1) := by omega
      rw [List.cons_append, skipString_cons_of_ne hescape', if_neg hopen, ih, hoffset]
      rfl

/-- Where a string ends is determined by where it begins. -/
theorem StringContent.eq_of_append_eq
    {content other rest left : List UInt8}
    (hcontent : StringContent quote content)
    (hother : StringContent quote other)
    (h : content ++ quote :: rest = other ++ quote :: left) :
    content = other := by
  have hskip := skipString_of_stringContent hquote hcontent 0 rest
  rw [h, skipString_of_stringContent hquote hother] at hskip
  have hlength : 0 + other.length + 1 = 0 + content.length + 1 := congrArg Cursor.offset hskip
  exact (List.append_inj h (by omega)).1

/-- A string that is no literal has no closing quote for the reader of literals. -/
theorem closingQuote?_of_not_literalContent
    {content : List UInt8}
    (hcontent : StringContent quote content)
    (hliteral : ¬ LiteralContent quote content)
    (offset : Nat) (rest : List UInt8) :
    closingQuote? quote offset (content ++ quote :: rest) = none := by
  refine Option.eq_none_iff_forall_ne_some.2 fun past hpast => hliteral ?_
  obtain ⟨other, hother, hsplit, -⟩ := literalContent_of_closingQuote? hpast
  rw [hcontent.eq_of_append_eq hquote hother.stringContent hsplit]
  exact hother

end Quotes

/-! ## Argument texts -/

/-- The bytes are the text of arguments, with literals of the given contents among them. -/
inductive ArgumentText : List UInt8 → List (List UInt8) → Prop
  | empty :
      ArgumentText [] []
  | plain
      {b : UInt8} {bytes : List UInt8} {found : List (List UInt8)}
      (hquote : Byte.isQuote b = false)
      (hopening : b ≠ Byte.ofAscii '(')
      (hclosing : b ≠ Byte.ofAscii ')')
      (hbytes : ArgumentText bytes found) :
      ArgumentText (b :: bytes) found
  | parenthesized
      {inner bytes : List UInt8} {first found : List (List UInt8)}
      (hinner : ArgumentText inner first)
      (hbytes : ArgumentText bytes found) :
      ArgumentText (Byte.ofAscii '(' :: (inner ++ Byte.ofAscii ')' :: bytes)) (first ++ found)
  | literal
      {quote : UInt8} {content bytes : List UInt8} {found : List (List UInt8)}
      (hquote : Byte.isQuote quote = true)
      (hcontent : LiteralContent quote content)
      (hbytes : ArgumentText bytes found) :
      ArgumentText (quote :: (content ++ quote :: bytes)) (content :: found)
  | string
      {quote : UInt8} {content bytes : List UInt8} {found : List (List UInt8)}
      (hquote : Byte.isQuote quote = true)
      (hcontent : StringContent quote content)
      (hliteral : ¬ LiteralContent quote content)
      (hbytes : ArgumentText bytes found) :
      ArgumentText (quote :: (content ++ quote :: bytes)) found

theorem ArgumentText.append
    {bytes more : List UInt8} {found others : List (List UInt8)}
    (h : ArgumentText bytes found)
    (hmore : ArgumentText more others) :
    ArgumentText (bytes ++ more) (found ++ others) := by
  induction h with
  | empty => exact hmore
  | plain hquote hopening hclosing _ ih => exact .plain hquote hopening hclosing ih
  | parenthesized hinner _ _ ih =>
      rw [List.append_assoc, List.cons_append, List.append_assoc]
      exact .parenthesized hinner ih
  | literal hquote hcontent _ ih =>
      rw [List.cons_append, List.append_assoc]
      exact .literal hquote hcontent ih
  | string hquote hcontent hliteral _ ih =>
      rw [List.cons_append, List.append_assoc]
      exact .string hquote hcontent hliteral ih

/-- The offsets behind bytes in parentheses, and behind what follows them. -/
theorem length_parenthesized
    (offset : Nat) (inner bytes : List UInt8) :
    offset + 1 + inner.length + 1 + bytes.length =
      offset + (Byte.ofAscii '(' :: (inner ++ Byte.ofAscii ')' :: bytes)).length := by
  simp only [List.length_cons, List.length_append]
  omega

/-- The offsets behind a string, and behind what follows it. -/
theorem length_enclosed
    (offset : Nat) (quote : UInt8) (content bytes : List UInt8) :
    offset + 1 + content.length + 1 + bytes.length =
      offset + (quote :: (content ++ quote :: bytes)).length := by
  simp only [List.length_cons, List.length_append]
  omega

/-- In the bytes from the offset on, the content stands at the span. -/
def HoldsAt (offset : Nat) (bytes content : List UInt8) (span : Span) : Prop :=
  ∃ front back, bytes = front ++ (content ++ back) ∧
    span = ⟨offset + front.length, offset + front.length + content.length⟩

theorem HoldsAt.front
    (offset : Nat) (content back : List UInt8) :
    HoldsAt offset (content ++ back) content ⟨offset, offset + content.length⟩ :=
  ⟨[], back, rfl, rfl⟩

theorem HoldsAt.of_append
    {offset : Nat} {bytes content : List UInt8} {span : Span}
    (passed : List UInt8)
    (h : HoldsAt (offset + passed.length) bytes content span) :
    HoldsAt offset (passed ++ bytes) content span := by
  obtain ⟨front, back, rfl, rfl⟩ := h
  refine ⟨passed ++ front, back, ?_, ?_⟩
  · rw [List.append_assoc]
  · rw [List.length_append, Nat.add_assoc]

namespace Cursor

/-! ### The search for the closing parenthesis -/

/-- A string is passed in one step, whether it is a literal or not. -/
theorem closingParen?_string
    {quote : UInt8} {content : List UInt8}
    (hquote : Byte.isQuote quote = true)
    (hcontent : StringContent quote content)
    (depth offset : Nat) (rest : List UInt8) :
    closingParen? depth offset (quote :: (content ++ quote :: rest)) =
      closingParen? depth (offset + 1 + content.length + 1) rest := by
  have hopening : quote ≠ 0x28 := by
    rintro rfl
    exact absurd hquote (by decide)
  have hclosing : quote ≠ 0x29 := by
    rintro rfl
    exact absurd hquote (by decide)
  rw [closingParen?, if_neg hopening, if_neg hclosing, if_pos hquote,
    skipString_of_stringContent hquote hcontent]

/-- The search for the closing parenthesis passes over the text of arguments. -/
theorem closingParen?_argumentText
    {bytes : List UInt8} {found : List (List UInt8)}
    (h : ArgumentText bytes found)
    (depth offset : Nat) (after : List UInt8) :
    closingParen? (depth + 1) offset (bytes ++ after) =
      closingParen? (depth + 1) (offset + bytes.length) after := by
  induction h generalizing depth offset after with
  | empty => rfl
  | @plain b bytes _ hquote hopening hclosing _ ih =>
      have hopening' : b ≠ 0x28 := hopening
      have hclosing' : b ≠ 0x29 := hclosing
      rw [List.cons_append, closingParen?, if_neg hopening', if_neg hclosing',
        if_neg (Bool.eq_false_iff.1 hquote), ih, List.length_cons, Nat.add_assoc, Nat.add_comm 1]
  | @parenthesized inner bytes _ _ _ _ ihInner ihBytes =>
      have hopening : Byte.ofAscii '(' = 0x28 := by decide
      have hclosing : Byte.ofAscii ')' = 0x29 := by decide
      have hdeeper : ¬ depth + 1 + 1 ≤ 1 := by omega
      rw [List.cons_append, closingParen?, if_pos hopening, List.append_assoc, ihInner,
        List.cons_append, closingParen?, if_neg (by decide), if_pos hclosing, if_neg hdeeper,
        Nat.add_sub_cancel, ihBytes, length_parenthesized]
  | literal hquote hcontent _ ih =>
      rw [List.cons_append, List.append_assoc, List.cons_append,
        closingParen?_string hquote hcontent.stringContent, ih, length_enclosed]
  | string hquote hcontent _ _ ih =>
      rw [List.cons_append, List.append_assoc, List.cons_append,
        closingParen?_string hquote hcontent, ih, length_enclosed]

/-! ### The search for literals -/

theorem literalsUntil_cons_of_not_isQuote
    {b : UInt8} {stop offset : Nat}
    (hquote : Byte.isQuote b = false)
    (hlt : offset < stop)
    (rest : List UInt8) :
    literalsUntil stop offset (b :: rest) = literalsUntil stop (offset + 1) rest := by
  rw [literalsUntil, if_neg (Nat.not_le.2 hlt), if_neg (Bool.eq_false_iff.1 hquote)]

theorem literalsUntil_literal
    {quote : UInt8} {content : List UInt8} {stop offset : Nat}
    (hquote : Byte.isQuote quote = true)
    (hcontent : LiteralContent quote content)
    (hlt : offset < stop)
    (rest : List UInt8) :
    literalsUntil stop offset (quote :: (content ++ quote :: rest)) =
      ⟨offset + 1, offset + 1 + content.length⟩ ::
        literalsUntil stop (offset + 1 + content.length + 1) rest := by
  have hliteral :
      literal? ⟨offset, quote :: (content ++ quote :: rest)⟩ =
        some (⟨offset + 1, offset + 1 + content.length⟩,
          ⟨offset + 1 + content.length + 1, rest⟩) := by
    simp only [literal?, if_pos hquote, closingQuote?_of_literalContent hquote hcontent,
      Option.map_some, Nat.add_sub_cancel]
  rw [literalsUntil, if_neg (Nat.not_le.2 hlt), if_pos hquote]
  split
  · next hsome =>
      rw [hliteral] at hsome
      cases hsome
      rfl
  · next hnone =>
      rw [hliteral] at hnone
      cases hnone

theorem literalsUntil_string
    {quote : UInt8} {content : List UInt8} {stop offset : Nat}
    (hquote : Byte.isQuote quote = true)
    (hcontent : StringContent quote content)
    (hliteral : ¬ LiteralContent quote content)
    (hlt : offset < stop)
    (rest : List UInt8) :
    literalsUntil stop offset (quote :: (content ++ quote :: rest)) =
      literalsUntil stop (offset + 1 + content.length + 1) rest := by
  have hnone : literal? ⟨offset, quote :: (content ++ quote :: rest)⟩ = none := by
    simp only [literal?, if_pos hquote,
      closingQuote?_of_not_literalContent hquote hcontent hliteral, Option.map_none]
  rw [literalsUntil, if_neg (Nat.not_le.2 hlt), if_pos hquote]
  split
  · next hsome =>
      rw [hnone] at hsome
      cases hsome
  · rw [skipString_of_stringContent hquote hcontent]

/-- In the text of arguments the contents of its literals are found. -/
theorem literalsUntil_argumentText
    {bytes : List UInt8} {found : List (List UInt8)}
    (h : ArgumentText bytes found)
    {stop offset : Nat} {after : List UInt8}
    (hstop : offset + bytes.length ≤ stop) :
    ∃ spans,
      literalsUntil stop offset (bytes ++ after) =
        spans ++ literalsUntil stop (offset + bytes.length) after ∧
      List.Forall₂ (HoldsAt offset (bytes ++ after)) found spans := by
  induction h generalizing offset after with
  | empty => exact ⟨[], rfl, .nil⟩
  | @plain b bytes found hquote _ _ _ ih =>
      have hlength : offset + (b :: bytes).length = offset + 1 + bytes.length := by
        rw [List.length_cons, Nat.add_assoc, Nat.add_comm 1]
      rw [hlength] at hstop ⊢
      obtain ⟨spans, hspans, hholds⟩ := @ih (offset + 1) after hstop
      refine ⟨spans, ?_, hholds.imp fun _ _ h => h.of_append [b]⟩
      rw [List.cons_append, literalsUntil_cons_of_not_isQuote hquote (by omega), hspans]
  | @parenthesized inner bytes first found _ _ ihInner ihBytes =>
      rw [← length_parenthesized] at hstop ⊢
      obtain ⟨inside, hinside, hholdsInside⟩ :=
        @ihInner (offset + 1) (Byte.ofAscii ')' :: (bytes ++ after)) (by omega)
      obtain ⟨spans, hspans, hholds⟩ := @ihBytes (offset + 1 + inner.length + 1) after (by omega)
      rw [List.cons_append, List.append_assoc, List.cons_append]
      refine ⟨inside ++ spans, ?_, List.rel_append ?_ ?_⟩
      · rw [literalsUntil_cons_of_not_isQuote (by decide) (by omega), hinside,
          literalsUntil_cons_of_not_isQuote (by decide) (by omega), hspans, List.append_assoc]
      · exact hholdsInside.imp fun _ _ h => h.of_append [Byte.ofAscii '(']
      · exact hholds.imp fun _ _ h =>
          ((h.of_append [Byte.ofAscii ')']).of_append inner).of_append [Byte.ofAscii '(']
  | @literal quote content bytes found hquote hcontent _ ih =>
      rw [← length_enclosed] at hstop ⊢
      obtain ⟨spans, hspans, hholds⟩ := @ih (offset + 1 + content.length + 1) after (by omega)
      rw [List.cons_append, List.append_assoc, List.cons_append]
      refine ⟨⟨offset + 1, offset + 1 + content.length⟩ :: spans, ?_, .cons ?_ ?_⟩
      · rw [literalsUntil_literal hquote hcontent (by omega), hspans]
        rfl
      · exact (HoldsAt.front (offset + 1) content _).of_append [quote]
      · exact hholds.imp fun _ _ h =>
          ((h.of_append [quote]).of_append content).of_append [quote]
  | @string quote content bytes found hquote hcontent hliteral _ ih =>
      rw [← length_enclosed] at hstop ⊢
      obtain ⟨spans, hspans, hholds⟩ := @ih (offset + 1 + content.length + 1) after (by omega)
      rw [List.cons_append, List.append_assoc, List.cons_append]
      refine ⟨spans, ?_, ?_⟩
      · rw [literalsUntil_string hquote hcontent hliteral (by omega), hspans]
      · exact hholds.imp fun _ _ h =>
          ((h.of_append [quote]).of_append content).of_append [quote]

end Cursor

end ClassLint
