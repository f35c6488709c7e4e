import ClassLint.Files.Glob.Part

/-!
# The nesting of glob patterns

A pattern can be used only if it is not nested too deeply.  Sequences, choices, groups,
repetitions and classes with their members are levels of nesting; a part that stands for
components is a choice within which a sequence repeats something.
-/

namespace ClassLint

namespace Glob

/-- How many steps of a sequence a part takes: each byte of a character is a step. -/
def Part.steps : Part → Nat
  | .literal c => (String.utf8EncodeChar c).length
  | .trailingComponents => 2
  | .alternatives branches => if branchesAreVoid branches then 0 else 1
  | _ => 1

/-- How many steps parts take one after the other. -/
def partsSteps : List Part → Nat
  | [] => 0
  | part :: parts => part.steps + partsSteps parts

/-- The level of a sequence, if the parts take more than one step. -/
def sequenceLevel (parts : List Part) : Nat :=
  if 2 ≤ partsSteps parts then 1 else 0

/-- The level of a choice, if there are several branches that have something to match. -/
def choiceLevel (branches : List (List Part)) : Nat :=
  if 2 ≤ (branches.filter fun branch => !branchIsVoid branch).length then 1 else 0

mutual

/-- How deeply a part is nested. -/
def Part.depth (options : Options) : Part → Nat
  | .literal _ => 0
  | .one => if options.literalSlash then 1 else 0
  | .many => if options.literalSlash then 2 else 1
  | .leadingComponents => 4
  | .trailingComponents => 1
  | .innerComponents => 4
  | .oneOf _ ranges => if 2 ≤ (classBytes ranges).length then 2 else 1
  | .alternatives branches =>
      if branchesAreVoid branches then 0
      else 1 + choiceLevel branches + branchesDepth options branches

/-- How deeply the deepest one of some parts is nested. -/
def partsDepth (options : Options) : List Part → Nat
  | [] => 0
  | part :: parts => max (part.depth options) (partsDepth options parts)

/-- How deeply the deepest one of some branches is nested. -/
def branchesDepth (options : Options) : List (List Part) → Nat
  | [] => 0
  | branch :: branches =>
      max (sequenceLevel branch + partsDepth options branch) (branchesDepth options branches)

end

/-- How deeply a pattern may be nested. -/
def depthLimit : Nat := 250

/-- Whether a pattern is nested too deeply; a whole pattern is always a sequence, with the ends of
the path around its parts. -/
def isTooDeep (options : Options) (parts : List Part) : Bool :=
  depthLimit < 1 + partsDepth options parts

end Glob

end ClassLint
