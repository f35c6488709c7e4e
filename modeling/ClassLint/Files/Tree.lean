import ClassLint.Files.Path

/-!
# File trees

A file tree is what a run sees of the file system: the files with their contents, the
directories, and the directory in which the run was started.

A path is followed component by component from the starting directory, or from the top if
it begins with a slash.  Everything on the way has to be a directory.
-/

namespace ClassLint

/-- The text that bytes encode. -/
def Text.ofBytes? (bytes : ByteArray) : Option Text :=
  (String.fromUTF8? bytes).map String.toList

/-- The text of a file with the given content. -/
def decodeText (content : ByteArray) : Except AccessError Text :=
  match Text.ofBytes? content with
  | some text => .ok text
  | none => .error .invalidText

/-- What a run sees of the file system. -/
structure FileTree where
  files : List (Location × ByteArray)
  /-- Directories that need not hold any file. -/
  directories : List Location
  /-- Where paths that do not begin with a slash start. -/
  start : Location

namespace FileTree

/-- The tree without anything, for runs that start at a location. -/
def empty (start : Location) : FileTree := ⟨[], [], start⟩

/-- The tree with one more file. -/
def addFile (tree : FileTree) (place : Location) (content : ByteArray) : FileTree :=
  { tree with files := (place, content) :: tree.files }

/-- The tree with one more directory. -/
def addDirectory (tree : FileTree) (place : Location) : FileTree :=
  { tree with directories := place :: tree.directories }

/-- The content of the file at a location. -/
def content? (tree : FileTree) (place : Location) : Option ByteArray :=
  tree.files.lookup place

/-- Whether there is a file at the location. -/
def hasFile (tree : FileTree) (place : Location) : Bool :=
  (tree.content? place).isSome

/-- Whether the location is a directory: the top, a listed directory, or one above something that
is listed. -/
def hasDirectory (tree : FileTree) (place : Location) : Bool :=
  place.isEmpty || tree.start == place ||
    (tree.directories.any fun d => place.isPrefixOf d) ||
    (tree.files.any fun f => place.isPrefixOf f.1 && f.1 != place)

/-- Whether there is anything at the location. -/
def has (tree : FileTree) (place : Location) : Bool :=
  tree.hasFile place || tree.hasDirectory place

/-- The location that the remaining components lead to. -/
def descend (tree : FileTree) (place : Location) : List Text → Except AccessError Location
  | [] => .ok place
  | name :: names =>
      if !tree.hasDirectory place then .error .notADirectory
      else if name.isEmpty || name == ['.'] then tree.descend place names
      else if name == ['.', '.'] then tree.descend place.dropLast names
      else if tree.has (place ++ [name]) then tree.descend (place ++ [name]) names
      else .error .notFound

/-- The location of a path. -/
def locate (tree : FileTree) (path : Text) : Except AccessError Location :=
  if path.isEmpty then .error .notFound
  else
    tree.descend (if path.startsWith ['/'] then [] else tree.start) (path.pieces (· == '/'))

/-- The content of the file at a path. -/
def readContent (tree : FileTree) (path : Text) : Except AccessError ByteArray :=
  match tree.locate path with
  | .error e => .error e
  | .ok place =>
      match tree.content? place with
      | some content => .ok content
      | none => .error .isADirectory

/-- The text of the file at a path. -/
def readText (tree : FileTree) (path : Text) : Except AccessError Text :=
  match tree.readContent path with
  | .error e => .error e
  | .ok content => decodeText content

/-- Whether the path leads to a file. -/
def isFile (tree : FileTree) (path : Text) : Bool :=
  match tree.locate path with
  | .ok place => tree.hasFile place
  | .error _ => false

end FileTree

end ClassLint
