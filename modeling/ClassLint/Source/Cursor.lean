import ClassLint.Text.Basic

/-!
# Places in a source text

Source text is searched byte by byte in its UTF-8 form.  Every byte that the search
looks for is an ASCII character, so it never is a part of a longer character.

A cursor is a place in the source: its offset in bytes and the bytes from there on.  A
span is the bytes between two offsets.
-/

namespace ClassLint

/-- The bytes of a text in UTF-8. -/
def Text.bytes (s : Text) : List UInt8 :=
  s.flatMap String.utf8EncodeChar

namespace Byte

/-- The byte of an ASCII character. -/
def ofAscii (c : Char) : UInt8 := c.toNat.toUInt8

/-- The bytes of an ASCII text. -/
def ofAsciiText (s : String) : List UInt8 := s.toList.map ofAscii

/-- Whether the byte is an ASCII blank: a space, a tab, a line feed, a form feed or a carriage
return. -/
def isBlank (b : UInt8) : Bool :=
  b == 0x20 || b == 0x09 || b == 0x0A || b == 0x0C || b == 0x0D

/-- Whether the byte is an ASCII letter or digit. -/
def isAlphanumeric (b : UInt8) : Bool :=
  (0x30 ≤ b && b ≤ 0x39) || (0x41 ≤ b && b ≤ 0x5A) || (0x61 ≤ b && b ≤ 0x7A)

/-- Whether the byte may be part of an identifier. -/
def isIdentifier (b : UInt8) : Bool :=
  isAlphanumeric b || b == ofAscii '_' || b == ofAscii '$'

/-- Whether the byte opens a string literal. -/
def isQuote (b : UInt8) : Bool :=
  b == 0x22 || b == 0x27 || b == 0x60

end Byte

/-- The bytes from the first offset up to the second. -/
structure Span where
  start : Nat
  stop : Nat
  deriving DecidableEq, Repr

/-- The order of spans by their beginning and then by their end. -/
def Span.before (s t : Span) : Bool :=
  s.start < t.start || (s.start == t.start && s.stop ≤ t.stop)

/-- A place in a source text. -/
structure Cursor where
  offset : Nat
  rest : List UInt8
  deriving Repr

namespace Cursor

/-- The place after the blanks at the cursor. -/
def skipBlanks (c : Cursor) : Cursor :=
  ⟨c.offset + (c.rest.takeWhile Byte.isBlank).length, c.rest.dropWhile Byte.isBlank⟩

/-- The place after the given bytes, if they stand at the cursor. -/
def accept? : List UInt8 → Cursor → Option Cursor
  | [], c => some c
  | _ :: _, ⟨_, []⟩ => none
  | b :: bs, ⟨offset, r :: rest⟩ => if b = r then accept? bs ⟨offset + 1, rest⟩ else none

/-- The place after the given ASCII character, if it stands at the cursor. -/
def acceptChar? (mark : Char) (c : Cursor) : Option Cursor :=
  c.accept? [Byte.ofAscii mark]

end Cursor

end ClassLint
