/-!
# Parts of glob patterns

A pattern matches a whole path: `?` stands for one byte, `*` for any bytes, `**` as a
component for any number of components, square brackets for one byte of a class, and
braces for one of several patterns.
-/

namespace ClassLint

namespace Glob

/-- A part of a pattern. -/
inductive Part where
  /-- The character itself. -/
  | literal (c : Char)
  /-- One byte, for `?`. -/
  | one
  /-- Any bytes, for `*`. -/
  | many
  /-- Any leading components, for `**` and a slash at the beginning. -/
  | leadingComponents
  /-- At least one further component, for a slash and `**` at the end. -/
  | trailingComponents
  /-- Any components in between, for `**` between slashes. -/
  | innerComponents
  /-- One byte within, or with `negated` outside of, ranges of characters. -/
  | oneOf (negated : Bool) (ranges : List (Char × Char))
  /-- One of several patterns. -/
  | alternatives (branches : List (List Part))
  deriving Repr

/-- How patterns are read and matched. -/
structure Options where
  /-- Whether only a slash of the pattern matches a slash of the path. -/
  literalSlash : Bool
  /-- Whether the bracket of a class that is never closed stands for itself. -/
  allowUnclosedClass : Bool
  deriving Repr

/-- The members of a written class as ranges of bytes: a character counts with each of its bytes,
and the hyphen of a range joins the last byte before it to the first byte after it. -/
def rangeBytes (first last : Char) : List (UInt8 × UInt8) :=
  let low := String.utf8EncodeChar first
  let high := String.utf8EncodeChar last
  let single (b : UInt8) : UInt8 × UInt8 := (b, b)
  if first = last then low.map single
  else
    low.dropLast.map single ++ (low.getLastD 0, high.headD 0) :: high.tail.map single

/-- The ranges of bytes that a class lists. -/
def classBytes (ranges : List (Char × Char)) : List (UInt8 × UInt8) :=
  ranges.flatMap fun (first, last) => rangeBytes first last

mutual

/-- Whether a part has nothing to match: alternatives all of whose branches are void. -/
def Part.isVoid : Part → Bool
  | .alternatives branches => branchesAreVoid branches
  | _ => false

/-- Whether a branch has nothing to match. -/
def branchIsVoid : List Part → Bool
  | [] => true
  | part :: parts => part.isVoid && branchIsVoid parts

/-- Whether no branch has anything to match. -/
def branchesAreVoid : List (List Part) → Bool
  | [] => true
  | branch :: branches => branchIsVoid branch && branchesAreVoid branches

end

end Glob

end ClassLint
