import ClassLint.Color.Hex
import ClassLint.Toml.Value

/-!
# TOML numbers and truth values

Integers of sixty-four bits in four bases, floating-point numbers, and the two truth
values; with dates and times they are the values that need no quotes or brackets.
-/

namespace ClassLint

namespace Toml

/-- Digits with single underscores between them; the underscores are left out. -/
def readDigits (isDigit : Char → Bool) : Text → Reading Text
  | [] => none
  | c :: s =>
      if isDigit c then
        match s with
        | '_' :: s => (readDigits isDigit s).map fun (digits, rest) => (c :: digits, rest)
        | s =>
            match readDigits isDigit s with
            | some (digits, rest) => some (c :: digits, rest)
            | none => if s.head?.any isDigit then none else some ([c], s)
      else none

/-- An optional sign, as a text. -/
def readSign : Text → Text × Text
  | '+' :: s => (['+'], s)
  | '-' :: s => (['-'], s)
  | s => ([], s)

/-- Decimal digits of which the first is zero only if it is alone. -/
def readWhole : Text → Reading Text
  | '0' :: s => some (['0'], s)
  | s => readDigits Char.isDigit s

/-- A decimal integer with its sign. -/
def readDecimal (s : Text) : Reading Text :=
  let (sign, s) := readSign s
  (readWhole s).map fun (digits, rest) => (sign ++ digits, rest)

/-- A point and digits. -/
def readFraction : Text → Reading Text
  | '.' :: s => (readDigits Char.isDigit s).map fun (digits, rest) => ('.' :: digits, rest)
  | _ => none

/-- An exponent with its letter. -/
def readExponent : Text → Reading Text
  | c :: s =>
      if c == 'e' || c == 'E' then
        let (sign, s) := readSign s
        (readDigits Char.isDigit s).map fun (digits, rest) => ('e' :: sign ++ digits, rest)
      else none
  | [] => none

/-- What one reader gives and what another one gives after it, which may be nothing. -/
def followedBy (first second : Text → Reading Text) (optional : Bool) (s : Text) : Reading Text :=
  (first s).bind fun (read, rest) =>
    match second rest with
    | some (more, rest) => some (read ++ more, rest)
    | none => if optional then some (read, rest) else none

/-- A floating-point number: a decimal integer with a fraction, an exponent, or both. -/
def readNumber (s : Text) : Reading Text :=
  let withFraction := followedBy readFraction readExponent true
  (readDecimal s).bind fun (whole, rest) =>
    ((withFraction rest).or (readExponent rest)).map fun (more, rest) => (whole ++ more, rest)

/-- Infinity or what is not a number, with an optional sign. -/
def readSpecial (s : Text) : Reading Text :=
  let (sign, s) := readSign s
  match s.dropLead? "inf".toList, s.dropLead? "nan".toList with
  | some rest, _ => some (sign ++ "inf".toList, rest)
  | none, some rest => some (sign ++ "nan".toList, rest)
  | none, none => none

/-- A floating-point value; a number above the range of doubles is refused. -/
def readFloat (s : Text) : Reading Value :=
  match readNumber s with
  | some (written, rest) =>
      if (Decimal.readFloat? written).isSome || written.startsWith ['-'] then
        some (.float written, rest)
      else none
  | none => (readSpecial s).map fun (written, rest) => (.float written, rest)

/-- The value of digits in a base. -/
def numberOfDigits (base : Nat) (digits : Text) : Nat :=
  digits.foldl (fun n c => base * n + (Hex.value? c).getD 0) 0

/-- An integer if it has at most sixty-four bits. -/
def checkedInteger? (n : Int) : Option Value :=
  if -0x8000000000000000 ≤ n ∧ n ≤ 0x7FFFFFFFFFFFFFFF then some (.integer n) else none

/-- An integer in the given base after its mark. -/
def readBased (base : Nat) (s : Text) : Reading Value :=
  let isDigit (c : Char) : Bool := (Hex.value? c).any (· < base)
  (readDigits isDigit s).bind fun (digits, rest) =>
    (checkedInteger? (numberOfDigits base digits)).map fun v => (v, rest)

/-- The integer of a decimal number. -/
def integerOfDecimal (written : Text) : Int :=
  let (negative, digits) := Decimal.splitSign written
  let n : Int := Decimal.digitsValue 0 digits
  if negative then -n else n

/-- An integer. -/
def readInteger (s : Text) : Reading Value :=
  match s with
  | '0' :: 'x' :: rest => readBased 16 rest
  | '0' :: 'o' :: rest => readBased 8 rest
  | '0' :: 'b' :: rest => readBased 2 rest
  | s =>
      (readDecimal s).bind fun (written, rest) =>
        (checkedInteger? (integerOfDecimal written)).map fun v => (v, rest)

/-- A number, a date, a time or a truth value. -/
def readScalar (s : Text) : Reading Value :=
  match s.dropLead? "true".toList, s.dropLead? "false".toList with
  | some rest, _ => some (.boolean true, rest)
  | none, some rest => some (.boolean false, rest)
  | none, none =>
      let moment := (readDateTime s).map fun (moment, rest) => (Value.dateTime moment, rest)
      (moment.or (readFloat s)).or (readInteger s)

end Toml

end ClassLint
