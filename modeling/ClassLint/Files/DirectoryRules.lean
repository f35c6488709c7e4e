import ClassLint.Files.IgnoreRule
import ClassLint.Files.Tree

/-!
# The ignore rules of a directory

A directory may hold general rules, rules that version control shares, and rules that a
repository keeps to itself.

A repository is a directory with version control data.  For a further worktree of a
repository these data are elsewhere: a file names a directory of the worktree, and a file
in that directory names the one that all worktrees have in common.
-/

namespace ClassLint

/-- The rules that the files of one directory hold. -/
structure DirectoryRules where
  place : Location
  /-- Rules of the file `.ignore`. -/
  general : List IgnoreRule
  /-- Rules of the file `.gitignore`. -/
  shared : List IgnoreRule
  /-- Rules of the exclude file of the repository in the directory. -/
  excluded : List IgnoreRule
  /-- Whether the directory holds a repository. -/
  isRepository : Bool
  deriving Repr

/-- The name under which a directory holds its repository. -/
def gitName : Text := ".git".toList

/-- The name under which a directory holds a repository of another kind, for which the shared rules
count as well. -/
def jjName : Text := ".jj".toList

/-- The directories that may hold rules because of something at the location. -/
def ruledDirectories (place : Location) : List Location :=
  let names := [".ignore".toList, ".gitignore".toList, gitName, jjName]
  (List.range place.length).filterMap fun n =>
    if (place[n]?).any names.contains then some (place.take n) else none

/-! ## Worktrees -/

/-- The first line of a file, if there is one that is text. -/
def firstLine? (content : ByteArray) : Option Text :=
  if content.isEmpty then none
  else (IgnoreRule.linesOf content.toList).head?.bind fun line => Text.ofBytes? ⟨line.toArray⟩

/-- The path of the directory of a worktree, as the file in place of the repository says. -/
def worktreePath? (content : ByteArray) : Option Text :=
  (firstLine? content).bind fun line => line.dropLead? "gitdir: ".toList

/-- The path of the file that says which directory all worktrees have in common. -/
def commonFilePath (worktree : Text) : Text :=
  worktree.joinPath "commondir".toList

/-- The path of the directory that all worktrees have in common, as a file of the worktree says: one
that begins with a point starts at the directory of the worktree. -/
def commonPath? (worktree : Text) (content : ByteArray) : Option Text :=
  (firstLine? content).map fun line =>
    if line.startsWith ['.'] then worktree.joinPath line else line

/-- The path of the exclude file of version control data. -/
def excludeFilePath (repository : Text) : Text :=
  repository.joinPath "info/exclude".toList

namespace FileTree

/-- The path of the exclude file for a worktree, going by the file in place of the repository. -/
def worktreeExcludePath? (tree : FileTree) (content : ByteArray) : Option Text := do
  let worktree ← worktreePath? content
  let common ← (tree.readContent (commonFilePath worktree)).toOption
  return excludeFilePath (← commonPath? worktree common)

/-- The rules of the file at a location, none if there is no file. -/
def rulesAt (tree : FileTree) (place : Location) : List IgnoreRule :=
  match tree.content? place with
  | some content => IgnoreRule.ofFile content
  | none => []

/-- The rules that the repository in a directory keeps to itself. -/
def excludedBy (tree : FileTree) (directory : Location) : List IgnoreRule :=
  match tree.content? (directory ++ [gitName]) with
  | none => tree.rulesAt (directory ++ [gitName, "info".toList, "exclude".toList])
  | some content =>
      match (tree.worktreeExcludePath? content).map tree.readContent with
      | some (.ok rules) => IgnoreRule.ofFile rules
      | _ => []

/-- The rules that the files of a directory hold. -/
def rulesOf (tree : FileTree) (directory : Location) : DirectoryRules :=
  { place := directory
    general := tree.rulesAt (directory ++ [".ignore".toList])
    shared := tree.rulesAt (directory ++ [".gitignore".toList])
    excluded := tree.excludedBy directory
    isRepository := tree.has (directory ++ [gitName]) || tree.has (directory ++ [jjName]) }

/-- The rules of every directory that has any. -/
def allRules (tree : FileTree) : List DirectoryRules :=
  ((tree.files.map Prod.fst ++ tree.directories).flatMap ruledDirectories).eraseDups.map
    tree.rulesOf

end FileTree

end ClassLint
