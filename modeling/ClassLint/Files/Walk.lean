import ClassLint.Files.Verdict

/-!
# Walks and patterns in a file tree

A walk of a file tree reaches the files below its root that no rule ignores.  Patterns that the
user writes are matched by bytes, and a wildcard of theirs also matches slashes.
-/

namespace ClassLint

/-- Whether a directory may hold something with the name. -/
def Text.isEntryName (name : Text) : Bool :=
  !name.isEmpty && name != ['.'] && name != ['.', '.'] && !name.contains '/'

/-- The paths of the files that a walk from a root reaches.  A root that is a hyphen stands for no
directory. -/
def FileTree.walk (tree : FileTree) (path : Text) (useGit : Bool) : List Text :=
  match tree.locate path with
  | .error _ => []
  | .ok place =>
      let root : WalkRoot := ⟨path, place⟩
      if path.pathNames == [['-']] then []
      else if tree.hasFile place then [path]
      else
        let rules := tree.allRules
        (tree.files.filter fun file =>
          place.isPrefixOf file.1 && file.1.all Text.isEntryName &&
            isReached useGit rules root file.1).map fun file => root.pathTo file.1

namespace Glob

/-- In patterns of the user a wildcard also matches slashes. -/
def userOptions : Options := ⟨false, false⟩

/-- Which paths a pattern of the user matches, or what is wrong with the pattern. -/
def userPattern (written : Text) : Except Text (Text → Bool) :=
  match parse userOptions written with
  | .error reason =>
      .error ("error parsing glob '".toList ++ written ++ "': ".toList ++ reason.message)
  | .ok parts => .ok fun path => isMatch userOptions parts path.bytes

/-- Whether a well-formed pattern of the user is nested too deeply. -/
def isTooDeepPattern (written : Text) : Bool :=
  match parse userOptions written with
  | .error _ => false
  | .ok parts => isTooDeep userOptions parts

/-- What is wrong with using some patterns of the user together: one is nested too deeply. -/
def userPatternsFault? (written : List Text) : Option Text :=
  (written.findIdx? isTooDeepPattern).map fun place =>
    "error parsing pattern ".toList ++ (Nat.repr place).toList

end Glob

end ClassLint
