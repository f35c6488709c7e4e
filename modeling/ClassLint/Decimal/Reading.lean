import ClassLint.Decimal.Nearest
import ClassLint.Text.Basic

/-!
# Reading decimal numbers

A decimal number is an optional sign, digits with at most one point among, before or
after them, and an optional exponent.  At least one digit is needed, and blanks or digit
separators are not allowed.  The value is the double nearest to the number; a number
beyond the range of doubles has no value.
-/

namespace ClassLint

namespace Decimal

/-- The value of a run of digits that follows digits of the given value. -/
def digitsValue (before : Nat) (digits : Text) : Nat :=
  digits.foldl (fun n c => 10 * n + (c.toNat - '0'.toNat)) before

/-- Whether a minus sign begins the text, and the text without its sign. -/
def splitSign : Text → Bool × Text
  | '+' :: s => (false, s)
  | '-' :: s => (true, s)
  | s => (false, s)

/-- The value of a nonempty run of digits that is the whole text. -/
def readNatural? (s : Text) : Option Nat :=
  if !s.isEmpty && s.all Char.isDigit then some (digitsValue 0 s) else none

/-- The value of an exponent part, which is empty or begins with `e`. -/
def readExponent? : Text → Option Int
  | [] => some 0
  | c :: s =>
      if c == 'e' || c == 'E' then
        let (negative, digits) := splitSign s
        (readNatural? digits).map fun n => if negative then -(n : Int) else (n : Int)
      else none

/-- The finite double that a decimal number stands for. -/
def readFloat? (s : Text) : Option Float :=
  let (negative, unsigned) := splitSign s
  let whole := unsigned.takeWhile Char.isDigit
  let afterWhole := unsigned.dropWhile Char.isDigit
  let (fraction, afterFraction) :=
    match afterWhole with
    | '.' :: rest => (rest.takeWhile Char.isDigit, rest.dropWhile Char.isDigit)
    | _ => ([], afterWhole)
  if whole.isEmpty && fraction.isEmpty then none
  else
    (readExponent? afterFraction).bind fun exponent =>
      nearestScaled? negative (digitsValue (digitsValue 0 whole) fraction)
        (exponent - fraction.length)

end Decimal

end ClassLint
