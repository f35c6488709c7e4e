import ClassLint.Color.Hex
import ClassLint.Toml.Basic

/-!
# TOML strings

The four forms of strings: basic strings in double quotes, with escapes, and literal
strings in single quotes, each on one line or, with three quotes, on several lines.
-/

namespace ClassLint

namespace Toml

/-- The character of an escape with one letter. -/
def simpleEscape? : Char → Option Char
  | 'b' => some '\x08'
  | 't' => some '\t'
  | 'n' => some '\n'
  | 'f' => some '\x0c'
  | 'r' => some '\r'
  | '"' => some '"'
  | '\\' => some '\\'
  | _ => none

/-- The number that hexadecimal digits stand for. -/
def hexNumber? (digits : Text) : Option Nat :=
  digits.foldl (fun n? c => n?.bind fun n => (Hex.value? c).map fun d => 16 * n + d) (some 0)

/-- The character that the digits of an escape stand for. -/
def scalarOfHex? (digits : Text) : Option Char :=
  (hexNumber? digits).bind fun n =>
    if n.isValidChar then some (Char.ofNat n) else none

/-- The character of the escape after a backslash. -/
def readEscape : Text → Reading Char
  | 'u' :: s =>
      if s.length < 4 then none
      else (scalarOfHex? (s.take 4)).map fun c => (c, s.drop 4)
  | 'U' :: s =>
      if s.length < 8 then none
      else (scalarOfHex? (s.take 8)).map fun c => (c, s.drop 8)
  | e :: s => (simpleEscape? e).map fun c => (c, s)
  | [] => none

/-- The content of a basic string after its opening quote; `fuel` bounds its length. -/
def readBasic (fuel : Nat) (s : Text) : Reading Text :=
  match fuel, s with
  | _, '"' :: rest => some ([], rest)
  | fuel + 1, '\\' :: rest =>
      (readEscape rest).bind fun (c, rest) =>
        (readBasic fuel rest).map fun (content, rest) => (c :: content, rest)
  | fuel + 1, c :: rest =>
      if isPlain c then (readBasic fuel rest).map fun (content, rest) => (c :: content, rest)
      else none
  | _, _ => none

/-- The content of a literal string after its opening quote. -/
def readLiteral : Text → Reading Text
  | [] => none
  | c :: rest =>
      if c = '\'' then some ([], rest)
      else if isPlain c then (readLiteral rest).map fun (content, rest) => (c :: content, rest)
      else none

/-- The content and the rest where a run of quotes ends a string of several lines: of up to five
quotes the last three close it. -/
def closeAtQuotes (quote : Char) (s : Text) : Reading Text :=
  let count := min (s.takeWhile (· == quote)).length 5
  if count < 3 then none else some (List.replicate (count - 3) quote, s.drop count)

/-- The text after a backslash at a line end and the blanks that follow it. -/
def dropLineBreak? (s : Text) : Option Text :=
  (dropNewline? (s.dropWhile isSpace)).map dropBlankLines

/-- The content of a basic string of several lines; `fuel` bounds its length. -/
def readBasicLines (fuel : Nat) (s : Text) : Reading Text :=
  match fuel with
  | 0 => none
  | fuel + 1 =>
      let after (c : Char) (rest : Text) : Reading Text :=
        (readBasicLines fuel rest).map fun (content, rest) => (c :: content, rest)
      match closeAtQuotes '"' s, dropNewline? s, s with
      | some closed, _, _ => some closed
      | none, some rest, _ => after '\n' rest
      | none, none, '\\' :: rest =>
          match dropLineBreak? rest with
          | some rest => readBasicLines fuel rest
          | none => (readEscape rest).bind fun (c, rest) => after c rest
      | none, none, c :: rest => if isPlain c then after c rest else none
      | none, none, [] => none

/-- The content of a literal string of several lines; `fuel` bounds its length. -/
def readLiteralLines (fuel : Nat) (s : Text) : Reading Text :=
  match fuel with
  | 0 => none
  | fuel + 1 =>
      let after (c : Char) (rest : Text) : Reading Text :=
        (readLiteralLines fuel rest).map fun (content, rest) => (c :: content, rest)
      match closeAtQuotes '\'' s, dropNewline? s, s with
      | some closed, _, _ => some closed
      | none, some rest, _ => after '\n' rest
      | none, none, c :: rest => if isPlain c then after c rest else none
      | none, none, [] => none

/-- The text without one line end at its beginning. -/
def dropFirstNewline (s : Text) : Text :=
  (dropNewline? s).getD s

/-- A string of one line, which is also a quoted part of a key. -/
def readLineString : Text → Reading Text
  | '"' :: s => readBasic s.length s
  | '\'' :: s => readLiteral s
  | _ => none

/-- A string of any form. -/
def readString (s : Text) : Reading Text :=
  match s with
  | '"' :: '"' :: '"' :: rest => readBasicLines (rest.length + 1) (dropFirstNewline rest)
  | '\'' :: '\'' :: '\'' :: rest => readLiteralLines (rest.length + 1) (dropFirstNewline rest)
  | s => readLineString s

end Toml

end ClassLint
