import ClassLint.Toml.Scalar
import ClassLint.Toml.Strings
import ClassLint.Toml.Table

/-!
# Reading TOML documents

A document is a sequence of lines: blank ones, comments, keys with values, and headers of
tables and of arrays of tables.  Values may be arrays, which extend over lines, and
inline tables, which do not.

Each reader gives what it read and the text after it, or nothing where the text is
malformed.  Readers of nested values are bounded by a fuel, which the length of the text
always covers, and by the nesting that is allowed.
-/

namespace ClassLint

namespace Toml

/-- The text after the blanks of a line. -/
def dropSpaces (s : Text) : Text :=
  s.dropWhile isSpace

/-- The text after a comment, if there is one. -/
def dropComment : Text → Text
  | '#' :: s => s.dropWhile isPlain
  | s => s

/-- The text after the end of a line, with a comment in front of it. -/
def dropLineEnd? (s : Text) : Option Text :=
  match dropComment (dropSpaces s) with
  | [] => some []
  | rest => dropNewline? rest

/-- The text after blanks, comments and line ends; `fuel` bounds their length. -/
def dropLines (fuel : Nat) (s : Text) : Text :=
  match fuel, dropNewline? (dropComment (dropSpaces s)) with
  | fuel + 1, some rest => dropLines fuel rest
  | _, _ => dropSpaces s

/-- Whether the character may stand in a key without quotes. -/
def isBareKey (c : Char) : Bool :=
  c.isAlphanum || c == '-' || c == '_'

/-- One part of a key. -/
def readKeyPart (s : Text) : Reading Text :=
  match s with
  | '"' :: _ => readLineString s
  | '\'' :: _ => readLineString s
  | s =>
      let bare := s.takeWhile isBareKey
      if bare.isEmpty then none else some (bare, s.dropWhile isBareKey)

/-- The parts of a key between points, with blanks around them; `fuel` bounds their number. -/
def readKeyParts (fuel : Nat) (s : Text) : Reading (List Text) :=
  match fuel with
  | 0 => none
  | fuel + 1 =>
      (readKeyPart (dropSpaces s)).bind fun (part, rest) =>
        match dropSpaces rest with
        | '.' :: rest => (readKeyParts fuel rest).map fun (parts, rest) => (part :: parts, rest)
        | rest => some ([part], rest)

/-- A dotted key. -/
def readKey (s : Text) : Reading (List Text) :=
  readKeyParts nestingLimit s

mutual

/-- A value; `depth` says how many arrays and inline tables may still be opened. -/
def readValue (fuel depth : Nat) (s : Text) : Reading Value :=
  match fuel, depth, s with
  | fuel + 1, depth + 1, '[' :: rest =>
      (readItems fuel depth rest).map fun (items, rest) => (.array items, rest)
  | fuel + 1, depth + 1, '{' :: rest =>
      match dropSpaces rest with
      | '}' :: rest => some (.table [], rest)
      | rest =>
          (readPairs fuel depth rest []).map fun (entries, rest) =>
            (.table (entriesToValues entries), rest)
  | _, _, s =>
      match readString s with
      | some (content, rest) => some (.string content, rest)
      | none => readScalar s

/-- The items of an array after its opening bracket or after a comma, up to the closing bracket. -/
def readItems (fuel depth : Nat) (s : Text) : Reading (List Value) :=
  match fuel with
  | 0 => none
  | fuel + 1 =>
      match dropLines s.length s with
      | ']' :: rest => some ([], rest)
      | s =>
          match readValue fuel depth s with
          | none => none
          | some (item, rest) =>
              match dropLines rest.length rest with
              | ']' :: rest => some ([item], rest)
              | ',' :: rest =>
                  (readItems fuel depth rest).map fun (items, rest) => (item :: items, rest)
              | _ => none

/-- The pairs of an inline table after those already read, up to the closing brace. -/
def readPairs (fuel depth : Nat) (s : Text) (entries : Entries) : Reading Entries :=
  match fuel with
  | 0 => none
  | fuel + 1 =>
      match readKey s with
      | some (key, '=' :: rest) =>
          match readValue fuel depth (dropSpaces rest) with
          | none => none
          | some (v, rest) =>
              match entries.insertValue v key true, dropSpaces rest with
              | some entries, '}' :: rest => some (entries, rest)
              | some entries, ',' :: rest => readPairs fuel depth rest entries
              | _, _ => none
      | _ => none

end

/-- The tables built so far and the path of the table that was opened last. -/
structure DocumentState where
  entries : Entries
  opened : List Text

/-- The state after a line with a key and its value, and the text after that line. -/
def readPairLine (state : DocumentState) (s : Text) : Reading DocumentState :=
  match readKey s with
  | some (key, '=' :: rest) =>
      match readValue (2 * rest.length + 2) nestingLimit (dropSpaces rest) with
      | none => none
      | some (v, rest) =>
          match state.entries.insertAt state.opened key v, dropLineEnd? rest with
          | some entries, some rest => some ({ state with entries := entries }, rest)
          | _, _ => none
  | _ => none

/-- The state after a header, given how it opens its table and which brackets close it, and the
text after its line. -/
def readHeaderLine
    (state : DocumentState)
    (openKey : Text → Entries → Option Entries)
    (closing s : Text) :
    Reading DocumentState :=
  match readKey s with
  | none => none
  | some (path, rest) =>
      match (rest.dropLead? closing).bind dropLineEnd?,
          Entries.updateParent openKey path state.entries with
      | some rest, some entries => some (⟨entries, path⟩, rest)
      | _, _ => none

/-- The state after one line, and the text after that line. -/
def readLine (state : DocumentState) (s : Text) : Reading DocumentState :=
  match dropLineEnd? s, dropSpaces s with
  | some rest, _ => some (state, rest)
  | none, '[' :: '[' :: rest => readHeaderLine state Entries.openArrayItem [']', ']'] rest
  | none, '[' :: rest => readHeaderLine state Entries.openTable [']'] rest
  | none, s => readPairLine state s

/-- The tables after the remaining lines; `fuel` bounds their number. -/
def readLines (fuel : Nat) (state : DocumentState) (s : Text) : Option Entries :=
  match fuel, s with
  | _, [] => some state.entries
  | 0, _ => none
  | fuel + 1, s => (readLine state s).bind fun (state, rest) => readLines fuel state rest

/-- The text without a byte order mark in front of it. -/
def dropByteOrderMark : Text → Text
  | '\ufeff' :: s => s
  | s => s

/-- The entries of a document, if it is well-formed. -/
def parse (text : Text) : Option (List (Text × Value)) :=
  let s := dropByteOrderMark text
  (readLines s.length ⟨[], []⟩ s).map entriesToValues

end Toml

end ClassLint
