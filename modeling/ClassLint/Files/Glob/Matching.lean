import ClassLint.Files.Glob.Part
import ClassLint.Source.Cursor

/-!
# Matching paths against glob patterns

Paths are matched byte by byte.  Marks say at which places of the path a part of a pattern
may begin; the part moves them to the places where it may end.  A pattern matches if it
moves a mark from the beginning of the path to its end.  Every part looks at each place
once, so that the work grows with the length of the pattern and that of the path.
-/

namespace ClassLint

namespace Glob

/-- The slash that separates components. -/
def slash : UInt8 := Byte.ofAscii '/'

/-- For each place of a path, from before its first byte to after its last one, whether it is
marked. -/
abbrev Marks := List Bool

namespace Marks

/-- A mark at the beginning of a path. -/
def atStart (path : List UInt8) : Marks :=
  true :: path.map fun _ => false

/-- Whether the end of the path is marked. -/
def atEnd (marks : Marks) : Bool :=
  marks.getLastD false

/-- No marks on the same places. -/
def cleared (marks : Marks) : Marks :=
  marks.map fun _ => false

/-- The marks of both. -/
def union (marks others : Marks) : Marks :=
  List.zipWith or marks others

/-- The marks moved over one byte that satisfies the test. -/
def step (marks : Marks) (path : List UInt8) (test : UInt8 → Bool) : Marks :=
  false :: List.zipWith (fun b marked => marked && test b) path marks

/-- The marks moved over any number of bytes that satisfy the test; `brought` says whether a mark
comes from before the first place. -/
def spreadFrom (test : UInt8 → Bool) (brought : Bool) : List UInt8 → Marks → Marks
  | _, [] => []
  | [], marked :: _ => [brought || marked]
  | b :: path, marked :: marks =>
      let here := brought || marked
      here :: spreadFrom test (here && test b) path marks

/-- The marks moved over any number of bytes that satisfy the test. -/
def spread (marks : Marks) (path : List UInt8) (test : UInt8 → Bool) : Marks :=
  spreadFrom test false path marks

/-- The marks moved over a slash. -/
def pastSlash (marks : Marks) (path : List UInt8) : Marks :=
  marks.step path (· == slash)

/-- The marks moved over any bytes. -/
def pastAll (marks : Marks) (path : List UInt8) : Marks :=
  marks.spread path fun _ => true

/-- The marks where they are, and moved over any bytes that end in a slash. -/
def pastComponents (marks : Marks) (path : List UInt8) : Marks :=
  marks.union ((marks.pastAll path).pastSlash path)

/-- The marks moved over the given bytes. -/
def pastBytes (marks : Marks) (path bytes : List UInt8) : Marks :=
  bytes.foldl (fun marks b => marks.step path (· == b)) marks

end Marks

/-- Whether the byte is in the class. -/
def inClass (negated : Bool) (ranges : List (UInt8 × UInt8)) (b : UInt8) : Bool :=
  negated != ranges.any fun (low, high) => low ≤ b && b ≤ high

/-- Whether a wildcard matches the byte. -/
def wildcard (options : Options) (b : UInt8) : Bool :=
  !options.literalSlash || b != slash

mutual

/-- The marks moved over what a part matches. -/
def Part.advance (options : Options) (path : List UInt8) : Part → Marks → Marks
  | .literal c, marks => marks.pastBytes path (String.utf8EncodeChar c)
  | .one, marks => marks.step path (wildcard options)
  | .many, marks => marks.spread path (wildcard options)
  | .leadingComponents, marks => marks.pastComponents path
  | .trailingComponents, marks => (marks.pastSlash path).pastAll path
  | .innerComponents, marks => (marks.pastSlash path).pastComponents path
  | .oneOf negated ranges, marks => marks.step path (inClass negated (classBytes ranges))
  | .alternatives branches, marks =>
      if branchesAreVoid branches then marks else branchesAdvance options path branches marks

/-- The marks moved over what parts match one after the other. -/
def partsAdvance (options : Options) (path : List UInt8) : List Part → Marks → Marks
  | [], marks => marks
  | part :: parts, marks => partsAdvance options path parts (part.advance options path marks)

/-- The marks moved over what one of several branches matches; void branches are left out. -/
def branchesAdvance (options : Options) (path : List UInt8) : List (List Part) → Marks → Marks
  | [], marks => marks.cleared
  | branch :: branches, marks =>
      let others := branchesAdvance options path branches marks
      if branchIsVoid branch then others
      else (partsAdvance options path branch marks).union others

end

/-- Whether the parts match the whole path; stars that stand for components alone match any path. -/
def isMatch (options : Options) (parts : List Part) (path : List UInt8) : Bool :=
  match parts with
  | [.leadingComponents] => true
  | parts => (partsAdvance options path parts (.atStart path)).atEnd

end Glob

end ClassLint
