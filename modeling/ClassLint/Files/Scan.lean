import ClassLint.Source.ClassString
import ClassLint.Surroundings

/-!
# Scanning files for class strings

A scan starts from a root, selects the paths that a walk from there reaches by patterns to include
and patterns to exclude, and collects the class strings of the files that are text.  A pattern may
match the path below the root or the path with the root.  Of the selected paths those that were met
before are dropped, and the others are sorted by their names.
-/

namespace ClassLint

/-- A class string, and the path of the file that it was found in. -/
structure ClassOccurrence where
  path : Text
  found : ClassString
  deriving DecidableEq, Repr

/-- What a scan found. -/
structure ScanResult where
  filesScanned : Nat
  occurrences : List ClassOccurrence
  deriving DecidableEq, Repr

/-- Why a scan does not start. -/
inductive ScanError where
  | noPatterns
  | invalidGlob (pattern reason : Text)
  /-- The patterns cannot be used together. -/
  | unusableGlob (reason : Text)
  deriving DecidableEq, Repr

/-- What the user is told. -/
def ScanError.message : ScanError → Text
  | noPatterns => "scan requires at least one glob pattern".toList
  | invalidGlob pattern reason =>
      "invalid glob pattern '".toList ++ pattern ++ "': ".toList ++ reason
  | unusableGlob reason => "failed to build glob set: ".toList ++ reason

/-- Where a scan starts and what it leaves out. -/
structure ScanOptions where
  root : Text
  useGitRules : Bool
  includeNodeModules : Bool
  deriving DecidableEq, Repr

/-- A scan from a root that leaves out what version control and packages leave out. -/
def ScanOptions.ofRoot (root : Text) : ScanOptions := ⟨root, true, false⟩

/-- The class strings of files in order, each given by its path and what reading it gave; files
that cannot be read are left out. -/
def collectClassStrings : List (Text × Except AccessError Text) → ScanResult
  | [] => ⟨0, []⟩
  | (path, outcome) :: files =>
      let others := collectClassStrings files
      match outcome with
      | .ok text =>
          ⟨others.filesScanned + 1,
            text.classStrings.map (ClassOccurrence.mk path) ++ others.occurrences⟩
      | .error _ => others

/-- Reads the files at some paths in order and collects their class strings. -/
def scanFiles (s : Surroundings) (paths : List Text) : ScanResult :=
  collectClassStrings (paths.map fun path => (path, s.readText path))

/-! ## Patterns -/

/-- The paths that some patterns match, one test for each pattern. -/
abbrev PathTests := List (Text → Bool)

/-- Whether one of the patterns matches the path. -/
def PathTests.accepts (tests : PathTests) (path : Text) : Bool :=
  tests.any fun test => test path

namespace Surroundings

/-- The tests of some written patterns, or the first of them that is malformed. -/
def testsOfEach (s : Surroundings) : List Text → Except ScanError PathTests
  | [] => .ok []
  | pattern :: patterns =>
      match s.pattern pattern with
      | .error reason => .error (.invalidGlob pattern reason)
      | .ok test =>
          match testsOfEach s patterns with
          | .error e => .error e
          | .ok tests => .ok (test :: tests)

/-- The tests of some written patterns, which have to be well-formed and usable together. -/
def tests (s : Surroundings) (patterns : List Text) : Except ScanError PathTests :=
  match s.testsOfEach patterns with
  | .error e => .error e
  | .ok tests =>
      match s.patternsFault? patterns with
      | some reason => .error (.unusableGlob reason)
      | none => .ok tests

end Surroundings

/-! ## Paths -/

namespace Text

/-- The path below a root, if it leads there by its names; else the path as it is. -/
def belowRoot (path root : Text) : Text :=
  if root.pathNames.isPrefixOf path.pathNames then
    join ['/'] (path.pathNames.drop root.pathNames.length)
  else path

/-- The order of paths: by their names one after the other, each by its code points. -/
def pathNotAfter (a b : Text) : Bool :=
  !decide (b.pathNames < a.pathNames)

end Text

/-- The extensions of files that hold no text. -/
def binaryExtensions : List Text :=
  Text.ofStrings [
    "png", "jpg", "jpeg", "gif", "webp", "ico", "avif", "mp4", "mov", "mp3", "wav", "zip",
    "gz", "pdf", "woff", "woff2", "ttf", "otf"]

/-- The extension of a file name: what follows its last point, if something precedes that point. -/
def extension? (name : Text) : Option Text :=
  match name.cutAtLast? '.' with
  | some (stem, extension) => if stem.isEmpty then none else some extension
  | none => none

/-- Whether the file is left out whatever the patterns say: it belongs to a package, or its name
says that it holds no text. -/
def isLeftOut (options : ScanOptions) (path : Text) : Bool :=
  let components := path.pieces (· == '/')
  (!options.includeNodeModules && components.contains "node_modules".toList) ||
    (((components.getLast?.bind extension?).map Text.lower).any binaryExtensions.contains)

/-- Whether the patterns select a path. -/
def isSelected (options : ScanOptions) (included excluded : PathTests) (path : Text) : Bool :=
  let below := path.belowRoot options.root
  (included.accepts below || included.accepts path) &&
    !(excluded.accepts below || excluded.accepts path) &&
    !isLeftOut options path

/-- The paths without those whose names are among the ones seen, and each of the others once. -/
def unseenPaths (seen : List (List Text)) : List Text → List Text
  | [] => []
  | path :: paths =>
      let names := path.pathNames
      if seen.contains names then unseenPaths seen paths
      else path :: unseenPaths (names :: seen) paths

/-- Of walked paths the ones to be kept, each once, in the order of paths. -/
def selectPaths (keep : Text → Bool) (walked : List Text) : List Text :=
  (unseenPaths [] (walked.filter keep)).mergeSort Text.pathNotAfter

/-! ## Scans -/

/-- Scans the files that the patterns select. -/
def scanPatterns
    (s : Surroundings)
    (options : ScanOptions)
    (included excluded : List Text) :
    Except ScanError ScanResult :=
  if included.isEmpty then .error .noPatterns
  else
    match s.tests included with
    | .error e => .error e
    | .ok included =>
        match s.tests excluded with
        | .error e => .error e
        | .ok excluded =>
            .ok (scanFiles s (selectPaths (isSelected options included excluded)
              (s.walk options.root options.useGitRules)))

end ClassLint
