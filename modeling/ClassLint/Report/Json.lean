import ClassLint.Text.Basic

/-!
# JSON values

What a report is as JSON, before it is written as text.
-/

namespace ClassLint

/-- A JSON value of a report. -/
inductive JsonValue where
  | number (n : Nat)
  | string (s : Text)
  | array (items : List JsonValue)
  | object (members : List (Text × JsonValue))
  deriving Repr

end ClassLint
