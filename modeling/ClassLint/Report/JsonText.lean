import ClassLint.Color.Hex
import ClassLint.Report.Json

/-!
# JSON text

Values of the report as JSON, one member or item to a line, each level indented by two
blanks.  Empty objects and arrays stay on one line.
-/

namespace ClassLint

namespace JsonValue

/-- The written form of a character within a string. -/
def escape (c : Char) : Text :=
  if c = '"' then ['\\', '"']
  else if c = '\\' then ['\\', '\\']
  else if c = '\n' then ['\\', 'n']
  else if c = '\r' then ['\\', 'r']
  else if c = '\t' then ['\\', 't']
  else if c = '\x08' then ['\\', 'b']
  else if c = '\x0c' then ['\\', 'f']
  else if c < ' ' then
    "\\u00".toList ++ Hex.writeByte c.toNat.toUInt8
  else [c]

/-- The written form of a string. -/
def quote (s : Text) : Text :=
  '"' :: (s.flatMap escape ++ ['"'])

/-- A new line indented to the given level. -/
def newLine (level : Nat) : Text :=
  '\n' :: List.replicate (2 * level) ' '

/-- Parts between brackets, each on a line of the given level. -/
def bracketed (opening closing : Char) (level : Nat) : List Text → Text
  | [] => [opening, closing]
  | parts =>
      let lines := Text.join [','] (parts.map fun part => newLine (level + 1) ++ part)
      opening :: (lines ++ newLine level ++ [closing])

mutual

/-- The written form of a value at a level of indentation. -/
def write (level : Nat) : JsonValue → Text
  | number n => (Nat.repr n).toList
  | string s => quote s
  | array items => bracketed '[' ']' level (writeItems (level + 1) items)
  | object members => bracketed '{' '}' level (writeMembers (level + 1) members)

/-- The written forms of items. -/
def writeItems (level : Nat) : List JsonValue → List Text
  | [] => []
  | item :: items => write level item :: writeItems level items

/-- The written forms of members with their names. -/
def writeMembers (level : Nat) : List (Text × JsonValue) → List Text
  | [] => []
  | (name, value) :: members =>
      (quote name ++ ": ".toList ++ write level value) :: writeMembers level members

end

/-- The written form of a value. -/
def pretty (value : JsonValue) : Text :=
  write 0 value

end JsonValue

end ClassLint
