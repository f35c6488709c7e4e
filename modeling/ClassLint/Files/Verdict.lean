import ClassLint.Files.DirectoryRules

/-!
# Verdicts on the entries of a walk

Which files of rules count for an entry, and in which order: the nearest directory first,
general rules before those of version control, and the latter only up to the nearest
repository.

A walk meets an entry by a path that begins as the path of the root was given.  Rules of
the directories from the root on see that path; those of the directories above the root see
the absolute path.
-/

namespace ClassLint

/-- Where a walk starts: the path that was given for it, and the place that this path leads to. -/
structure WalkRoot where
  path : Text
  place : Location

namespace WalkRoot

/-- The path by which the walk meets the place. -/
def pathTo (root : WalkRoot) (place : Location) : Text :=
  (place.drop root.place.length).foldl Text.joinPath root.path

/-- The path of an entry that verdicts go by; one point and slash in front of it count for
nothing. -/
def entryPath (root : WalkRoot) (entry : Location) : Text :=
  (root.pathTo entry).withoutHere

/-- The absolute path of an entry that verdicts go by: the path of the root as it was given is
replaced by that of its place. -/
def absoluteEntryPath (root : WalkRoot) (entry : Location) : Text :=
  let path := root.entryPath entry
  root.place.toPath.joinPath
    (if root.path.isHere then path else path.withoutDirectory root.path.withoutHere)

/-- The path of an entry as the rules of a directory see it. -/
def pathBelow (root : WalkRoot) (directory entry : Location) : Text :=
  if root.place.length ≤ directory.length then
    (root.entryPath entry).below (root.pathTo directory)
  else (root.absoluteEntryPath entry).below directory.toPath

end WalkRoot

/-- The rules of the directories that an entry lies in, the nearest directory first. -/
def enclosingRules (rules : List DirectoryRules) (entry : Location) : List DirectoryRules :=
  (List.range entry.length).reverse.filterMap fun n =>
    rules.find? fun r => r.place == entry.take n

/-- The first verdict that a kind of rules gives, going through directories in order. -/
def firstVerdict?
    (kind : DirectoryRules → List IgnoreRule)
    (rules : List DirectoryRules)
    (root : WalkRoot)
    (entry : Location)
    (isDirectory : Bool) :
    Option Verdict :=
  rules.findSome? fun r =>
    IgnoreRule.verdict? (kind r) (root.pathBelow r.place entry).bytes isDirectory

/-- The directories up to the nearest repository, none if there is no repository. -/
def upToRepository (rules : List DirectoryRules) : List DirectoryRules :=
  if rules.any DirectoryRules.isRepository then
    rules.takeWhile (fun r => !r.isRepository) ++ (rules.find? DirectoryRules.isRepository).toList
  else []

/-- The verdict on an entry; the rules of version control may be left out. -/
def entryVerdict?
    (useGit : Bool)
    (rules : List DirectoryRules)
    (root : WalkRoot)
    (entry : Location)
    (isDirectory : Bool) :
    Option Verdict :=
  let enclosing := enclosingRules rules entry
  let tracked := if useGit then upToRepository enclosing else []
  ((firstVerdict? DirectoryRules.general enclosing root entry isDirectory).or
    (firstVerdict? DirectoryRules.shared tracked root entry isDirectory)).or
    (firstVerdict? DirectoryRules.excluded tracked root entry isDirectory)

/-- Whether the walk from a directory reaches a file below it: neither the file nor a directory in
between is ignored. -/
def isReached
    (useGit : Bool)
    (rules : List DirectoryRules)
    (root : WalkRoot)
    (file : Location) :
    Bool :=
  (List.range (file.length - root.place.length)).all fun n =>
    let entry := file.take (root.place.length + n + 1)
    entryVerdict? useGit rules root entry (entry.length < file.length) != some .ignored

end ClassLint
