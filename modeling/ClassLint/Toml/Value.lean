import ClassLint.Toml.DateTime

/-!
# TOML values

The values of a TOML document.  Floating-point numbers are kept as they are written.
-/

namespace ClassLint

namespace Toml

/-- A value of a TOML document. -/
inductive Value where
  | string (s : Text)
  | integer (n : Int)
  | float (written : Text)
  | boolean (b : Bool)
  | dateTime (moment : DateTime)
  | array (items : List Value)
  | table (entries : List (Text × Value))
  deriving Repr

end Toml

end ClassLint
