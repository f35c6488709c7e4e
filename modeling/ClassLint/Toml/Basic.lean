import ClassLint.Text.Basic

/-!
# Reading TOML text

A reader takes a text and gives what it read from the beginning of the text, together with
the text after it, or nothing where the text is malformed.  This module also says which
characters are blanks, ends of lines, or may stand for themselves.
-/

namespace ClassLint

namespace Toml

/-- What a reader gives: something it read and the text after it. -/
abbrev Reading (α : Type) := Option (α × Text)

/-- How deeply arrays and inline tables may be nested, and how many parts a key may have. -/
def nestingLimit : Nat := 79

/-- Whether the character may stand for itself in comments and strings: no control character but
the tab. -/
def isPlain (c : Char) : Bool :=
  c == '\t' || (' ' ≤ c && c != '\x7f')

/-- Whether the character is a blank within a line. -/
def isSpace (c : Char) : Bool :=
  c == ' ' || c == '\t'

/-- The text after a line end. -/
def dropNewline? : Text → Option Text
  | '\n' :: s => some s
  | '\r' :: '\n' :: s => some s
  | _ => none

/-- The text after the given character. -/
def dropMark? (mark : Char) : Text → Option Text
  | c :: s => if c = mark then some s else none
  | [] => none

/-- The text after blanks and line ends. -/
def dropBlankLines : Text → Text
  | [] => []
  | '\r' :: '\n' :: s => dropBlankLines s
  | c :: s => if isSpace c || c == '\n' then dropBlankLines s else c :: s

end Toml

end ClassLint
