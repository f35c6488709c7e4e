import ClassLint.Source.Literal

/-!
# Calls of `tw`

The string literals directly or indirectly among the arguments of a call `tw(…)`, up to
the parenthesis that closes the call.  Parentheses inside of strings do not count, and
strings that are no literals, such as templates with interpolation, are passed over.
-/

namespace ClassLint

namespace Cursor

/-- The offset of the parenthesis that closes the outermost one of `depth` open parentheses. -/
def closingParen? (depth : Nat) (offset : Nat) : List UInt8 → Option Nat
  | [] => none
  | b :: rest =>
      if b = 0x28 then closingParen? (depth + 1) (offset + 1) rest
      else if b = 0x29 then
        if depth ≤ 1 then some offset
        else closingParen? (depth - 1) (offset + 1) rest
      else if Byte.isQuote b then
        let past := skipString b (offset + 1) rest
        closingParen? depth past.offset past.rest
      else closingParen? depth (offset + 1) rest
  termination_by s => s.length
  decreasing_by
    · simp
    · simp
    · have := skipString_rest_length_le b (offset + 1) rest
      simp
      omega
    · simp

/-- The contents of the literals from one offset up to another. -/
def literalsUntil (stop offset : Nat) : List UInt8 → List Span
  | [] => []
  | b :: rest =>
      if stop ≤ offset then []
      else if Byte.isQuote b then
        match hliteral : literal? ⟨offset, b :: rest⟩ with
        | some (content, past) => content :: literalsUntil stop past.offset past.rest
        | none =>
            let past := skipString b (offset + 1) rest
            literalsUntil stop past.offset past.rest
      else literalsUntil stop (offset + 1) rest
  termination_by s => s.length
  decreasing_by
    · exact literal?_rest_length_lt hliteral
    · exact Nat.lt_succ_of_le (skipString_rest_length_le b (offset + 1) rest)
    · exact Nat.lt_succ_self _

/-- The contents of the literal arguments of the call whose name begins at the cursor. -/
def callArgumentsHere (previous : Option UInt8) (c : Cursor) : List Span :=
  if previous.any Byte.isIdentifier then []
  else
    match (c.accept? (Byte.ofAsciiText "tw")).bind fun past => past.skipBlanks.acceptChar? '(' with
    | none => []
    | some inside =>
        match closingParen? 1 inside.offset inside.rest with
        | none => []
        | some stop => literalsUntil stop inside.offset inside.rest

end Cursor

end ClassLint
