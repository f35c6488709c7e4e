import ClassLint.Source.Literal

/-!
# Class attributes

A class attribute is `class` or `className`, not as the end of a longer name, then an
equals sign and either a quoted literal or a lone literal in braces.  ASCII blanks may
stand between the parts.
-/

namespace ClassLint

/-- Whether a byte in front of an attribute makes it a part of a longer name. -/
def continuesName (previous : Option UInt8) : Bool :=
  match previous with
  | none => false
  | some b => Byte.isIdentifier b || b == Byte.ofAscii '-' || b == Byte.ofAscii ':'

namespace Cursor

/-- The content of a lone literal in braces at the cursor. -/
def bracedLiteral? (c : Cursor) : Option Span :=
  (c.accept? [0x7B]).bind fun inside =>
    (inside.skipBlanks.literal?).bind fun (content, past) =>
      (past.skipBlanks.accept? [0x7D]).map fun _ => content

/-- The content of a literal in single or double quotes at the cursor. -/
def quotedLiteral? (c : Cursor) : Option Span :=
  match c.rest with
  | quote :: _ => if quote = 0x60 then none else c.literal?.map Prod.fst
  | [] => none

/-- The content of the attribute's value, reading from just past the attribute's name. -/
def attributeValue? (c : Cursor) : Option Span :=
  (c.skipBlanks.acceptChar? '=').bind fun past =>
    let value := past.skipBlanks
    (value.quotedLiteral?).or value.bracedLiteral?

/-- The contents of the class attributes whose names begin at the cursor. -/
def attributesHere (previous : Option UInt8) (c : Cursor) : List Span :=
  if continuesName previous then []
  else
    ([Byte.ofAsciiText "class", Byte.ofAsciiText "className"].filterMap fun name =>
      (c.accept? name).bind attributeValue?)

end Cursor

end ClassLint
