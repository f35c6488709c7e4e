import ClassLint.Run

/-!
# The program

Reads from disk what a command may look at, runs the command on it, and prints what the
run gives.  A run that fails, or does not finish, ends with the exit code one.
-/

namespace ClassLint

namespace Program

/-- A location as an absolute path. -/
def pathOf (place : Location) : String :=
  String.ofList place.toPath

/-- Whether there is a directory at a location. -/
def isDirectoryAt (place : Location) : IO Bool := do
  try
    (← IO.FS.realPath (pathOf place)).isDir
  catch _ =>
    return false

/-- Adds the file or the directory at a location, if there is one that can be read. -/
def addFileAt (tree : FileTree) (place : Location) : IO FileTree := do
  if ← isDirectoryAt place then return tree.addDirectory place
  try
    return tree.addFile place (← IO.FS.readBinFile (pathOf place))
  catch _ =>
    return tree

/-- Adds what lies below a directory, except for packages and the contents of files that are never
scanned; what cannot be read is left out, and links are not followed. -/
partial def addBelow (tree : FileTree) (place : Location) : IO FileTree := do
  try
    let mut tree := tree.addDirectory place
    for entry in ← (← IO.FS.realPath (pathOf place)).readDir do
      let inner := place ++ [entry.fileName.toList]
      let leftOut := isLeftOut (.ofRoot []) entry.fileName.toList
      match (← entry.path.symlinkMetadata).type, leftOut with
      | .dir, false => tree ← addBelow tree inner
      | .dir, true => tree := tree.addDirectory inner
      | .file, false => tree ← addFileAt tree inner
      | .file, true => tree := tree.addFile inner .empty
      | _, _ => pure ()
    return tree
  catch _ =>
    return tree

/-- Adds the ignore rules of a directory. -/
def addRules (tree : FileTree) (place : Location) : IO FileTree := do
  let mut tree := tree
  for name in [[".ignore"], [".gitignore"], [".git"], [".git", "info", "exclude"], [".jj"]] do
    tree ← addFileAt tree (place ++ name.map String.toList)
  return tree

/-- Adds the ignore rules of the directories above a location. -/
def addRulesAbove (tree : FileTree) (place : Location) : IO FileTree :=
  (List.range place.length).foldlM (fun tree n => addRules tree (place.take n)) tree

/-- Adds the exclude file of a worktree, going by the file in place of the repository. -/
def addWorktree (tree : FileTree) (content : ByteArray) : IO FileTree := do
  match worktreePath? content with
  | none => return tree
  | some worktree =>
      let tree ← addFileAt tree ((commonFilePath worktree).locationFrom tree.start)
      match tree.worktreeExcludePath? content with
      | some path => addFileAt tree (path.locationFrom tree.start)
      | none => return tree

/-- Adds the exclude files of all worktrees that the tree knows of. -/
def addWorktrees (tree : FileTree) : IO FileTree :=
  (tree.files.filter fun file => file.1.getLast? == some gitName).foldlM
    (fun tree file => addWorktree tree file.2) tree

/-- Adds a directory that is scanned, or a file that is scanned instead. -/
def addRoot (tree : FileTree) (place : Location) : IO FileTree := do
  let tree ← addBelow tree place
  let tree ← addRulesAbove tree place
  let tree ← addWorktrees tree
  if tree.hasDirectory place then return tree else addFileAt tree place

/-- The part of the file system that a command may look at. -/
def treeFor (command : Command) : IO FileTree := do
  let here := (Text.locationFrom (← IO.FS.realPath ".").toString.toList [])
  let tree := (FileTree.empty here).addDirectory here
  match command with
  | .help => return tree
  | .check options =>
      let tree ← addRoot tree ((options.root.getD ['.']).locationFrom here)
      match options.config with
      | some path => addFileAt tree (path.locationFrom here)
      | none => return tree
  | .resolve options =>
      addFileAt tree ((options.config.getD Config.fileName).locationFrom here)

/-- Tells the user why a run did not finish. -/
def complain (e : RunError) : IO UInt32 := do
  IO.eprintln ("error: " ++ String.ofList e.message)
  return 1

/-- Runs the command that some arguments ask for. -/
def runWith (args : List Text) : IO UInt32 := do
  match Command.parse args with
  | .error e => complain (.usage e)
  | .ok command =>
      match command.run (← treeFor command) with
      | .error e => complain e
      | .ok output =>
          IO.print (String.ofList output.text)
          return if output.outcome = .success then 0 else 1

end Program

end ClassLint

/-- Runs the program on its command line. -/
def main (args : List String) : IO UInt32 :=
  ClassLint.Program.runWith (args.map String.toList)
