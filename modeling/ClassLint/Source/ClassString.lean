import ClassLint.Source.Attribute
import ClassLint.Source.Call

/-!
# Class strings in source text

The class strings of a source text are the contents of its class attributes and of the
literal arguments of its `tw` calls, each of them once and in order of position.  A
position is a line and a column, both counted from one, the column in characters.
-/

namespace ClassLint

/-- A line and a column, counted from one. -/
structure Position where
  line : Nat
  column : Nat
  deriving DecidableEq, Repr

namespace Position

/-- The beginning of a text. -/
def first : Position := ⟨1, 1⟩

/-- The position after one more character. -/
def step (p : Position) (c : Char) : Position :=
  if c = '\n' then ⟨p.line + 1, 1⟩ else ⟨p.line, p.column + 1⟩

/-- The position after a number of bytes, and the text from there on. -/
def advance (p : Position) (size : Nat) : Text → Position × Text
  | [] => (p, [])
  | c :: s => if size = 0 then (p, c :: s) else advance (p.step c) (size - c.utf8Size) s

end Position

/-- The characters within the first bytes of a text. -/
def Text.takeBytes (size : Nat) : Text → Text
  | [] => []
  | c :: s => if size = 0 then [] else c :: takeBytes (size - c.utf8Size) s

/-- A class string and where its first character stands. -/
structure ClassString where
  position : Position
  value : Text
  deriving DecidableEq, Repr

namespace Cursor

/-- The spans of class strings that begin at or after the cursor, before those already found. -/
def classSpansFrom (found : List Span) (previous : Option UInt8) (offset : Nat) :
    List UInt8 → List Span
  | [] => found
  | b :: rest =>
      let here : Cursor := ⟨offset, b :: rest⟩
      let new := here.attributesHere previous ++ here.callArgumentsHere previous
      classSpansFrom (new ++ found) (some b) (offset + 1) rest

end Cursor

namespace Text

/-- The spans of the class strings of a text, sorted and without repetition. -/
def classSpans (s : Text) : List Span :=
  ((Cursor.classSpansFrom [] none 0 s.bytes).mergeSort Span.before).eraseReps

/-- The class string of a span. -/
def classStringAt (s : Text) (span : Span) : ClassString :=
  let (position, rest) := Position.first.advance span.start s
  ⟨position, rest.takeBytes (span.stop - span.start)⟩

/-- The class strings of a text in order of position. -/
def classStrings (s : Text) : List ClassString :=
  s.classSpans.map s.classStringAt

end Text

end ClassLint
