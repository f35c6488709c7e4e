import ClassLint.Files.Glob
import ClassLint.Files.Glob.Depth
import ClassLint.Files.Glob.Matching
import ClassLint.Files.Tree
import ClassLint.Text.Blank

/-!
# Ignore rules

A file of ignore rules speaks about what lies below its directory.  A rule is a pattern,
on a line of its own; a leading exclamation mark makes it keep what it matches, and a
trailing slash confines it to directories.  A pattern without a slash inside applies at
every depth.  The last rule that matches decides.  A file one of whose patterns is nested
too deeply has no rules at all.
-/

namespace ClassLint

/-- What a rule decides about an entry. -/
inductive Verdict where
  | ignored | kept
  deriving DecidableEq, Repr

/-- One ignore rule. -/
structure IgnoreRule where
  verdict : Verdict
  onlyDirectories : Bool
  pattern : List Glob.Part
  deriving Repr

namespace IgnoreRule

/-- In ignore rules a wildcard stays within a component, and the bracket of a class that is never
closed stands for itself. -/
def options : Glob.Options := ⟨true, true⟩

/-- The line without blanks at its end, unless the last of them is escaped. -/
def trimLine (line : Text) : Text :=
  if (line.dropTail? ['\\', ' ']).isSome then line else line.trimTail

/-- What a line decides, whether its pattern starts at the directory of the rules, and that
pattern. -/
def splitMarks : Text → Verdict × Bool × Text
  | '\\' :: '!' :: s => (.ignored, false, '!' :: s)
  | '\\' :: '#' :: s => (.ignored, false, '#' :: s)
  | '!' :: '/' :: s => (.kept, true, s)
  | '!' :: s => (.kept, false, s)
  | '/' :: s => (.ignored, true, s)
  | s => (.ignored, false, s)

/-- Whether a slash ends the pattern, and the pattern without that slash and its escape. -/
def splitFinalSlash (pattern : Text) : Bool × Text :=
  match pattern.dropTail? ['/'] with
  | some body => (true, (body.dropTail? ['\\']).getD body)
  | none => (false, pattern)

/-- The pattern that has to match the whole path below the directory of the rules. -/
def wholePattern (anchored : Bool) (pattern : Text) : Text :=
  let placed :=
    if anchored || pattern.contains '/' || pattern == "**".toList then pattern
    else "**/".toList ++ pattern
  if (placed.dropTail? "/**".toList).isSome then placed ++ "/*".toList else placed

/-- The rule on a line; comments, empty lines and malformed patterns give none. -/
def ofLine? (line : Text) : Option IgnoreRule :=
  let trimmed := trimLine line
  if line.startsWith ['#'] || trimmed.isEmpty then none
  else
    let (verdict, anchored, marked) := splitMarks trimmed
    let (onlyDirectories, pattern) := splitFinalSlash marked
    match Glob.parse options (wholePattern anchored pattern) with
    | .ok parts => some ⟨verdict, onlyDirectories, parts⟩
    | .error _ => none

/-- Whether the rule applies to the entry at a path below the directory of the rules. -/
def applies (rule : IgnoreRule) (path : List UInt8) (isDirectory : Bool) : Bool :=
  (!rule.onlyDirectories || isDirectory) && Glob.isMatch options rule.pattern path

/-- The lines of a file, each without its line end. -/
def linesOf : List UInt8 → List (List UInt8)
  | [] => [[]]
  | 0x0A :: rest => [] :: linesOf rest
  | 0x0D :: 0x0A :: rest => [] :: linesOf rest
  | b :: rest => (linesOf rest).modifyHead (List.cons b)

/-- The rules on the lines up to the first line that is no text. -/
def ofLines : List (List UInt8) → List IgnoreRule
  | [] => []
  | bytes :: lines =>
      match Text.ofBytes? ⟨bytes.toArray⟩ with
      | some line => (ofLine? line).toList ++ ofLines lines
      | none => []

/-- The rules of a file, whose first line may begin with a byte order mark. -/
def ofFile (content : ByteArray) : List IgnoreRule :=
  let rules := ofLines ((linesOf content.toList).modifyHead dropMarks)
  if rules.any fun rule => Glob.isTooDeep options rule.pattern then [] else rules
where
  /-- The line without byte order marks in front of it. -/
  dropMarks : List UInt8 → List UInt8
    | 0xEF :: 0xBB :: 0xBF :: rest => dropMarks rest
    | rest => rest

/-- The verdict of the last rule that applies. -/
def verdict? (rules : List IgnoreRule) (path : List UInt8) (isDirectory : Bool) :
    Option Verdict :=
  (rules.reverse.find? fun rule => rule.applies path isDirectory).map IgnoreRule.verdict

end IgnoreRule

end ClassLint
