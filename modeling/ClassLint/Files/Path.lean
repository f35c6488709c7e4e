import ClassLint.Text.Basic

/-!
# Paths

A path is a text of names with slashes between them; it begins with a slash if it starts
at the top.  A location is where a path leads: the names from the top down to it.
-/

namespace ClassLint

/-- Why a path cannot be read. -/
inductive AccessError where
  | notFound
  | notADirectory
  | isADirectory
  | invalidText
  deriving DecidableEq, Repr

/-- What the user is told. -/
def AccessError.message : AccessError → Text
  | notFound => "No such file or directory (os error 2)".toList
  | notADirectory => "Not a directory (os error 20)".toList
  | isADirectory => "Is a directory (os error 21)".toList
  | invalidText => "stream did not contain valid UTF-8".toList

/-- A place in a file tree, as the names from the top down to it. -/
abbrev Location := List Text

/-- The absolute path of a location. -/
def Location.toPath (place : Location) : Text :=
  if place.isEmpty then ['/'] else place.flatMap fun name => '/' :: name

namespace Text

/-- The location of a path by its names alone, whether or not there is anything. -/
def locationFrom (path : Text) (start : Location) : Location :=
  (path.pieces (· == '/')).foldl
    (fun place name =>
      if name.isEmpty || name == ['.'] then place
      else if name == ['.', '.'] then place.dropLast
      else place ++ [name])
    (if path.startsWith ['/'] then [] else start)

/-- The path of a name within the directory at a path. -/
def joinPath (directory name : Text) : Text :=
  if directory.isEmpty || directory.getLast? == some '/' then directory ++ name
  else directory ++ '/' :: name

/-- The names on a path; an empty name or a single point counts only at the beginning. -/
def pathNames (path : Text) : List Text :=
  match path.pieces (· == '/') with
  | [] => []
  | first :: names => first :: names.filter fun name => !(name.isEmpty || name == ['.'])

/-- Whether the path is a single point. -/
def isHere (path : Text) : Bool :=
  path.pathNames == [['.']]

/-- The path without one point and slash at its beginning. -/
def withoutHere (path : Text) : Text :=
  path.withoutLead ['.', '/']

/-- The path without the directory and the slash after it, if it begins with the directory. -/
def withoutDirectory (path directory : Text) : Text :=
  match path.dropLead? directory with
  | some rest => rest.withoutLead ['/']
  | none => path

/-- The path below the directory at another path, for paths that begin alike.  One point and slash
count for nothing, a path that is only a name stays as it is, and there is nothing to take
away where the directory is a single point. -/
def below (path directory : Text) : Text :=
  let path := path.withoutHere
  let base := directory.withoutHere
  if base.isHere || !path.contains '/' then path else path.withoutDirectory base

end Text

end ClassLint
