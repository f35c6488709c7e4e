import ClassLint.Decimal.Reading
import ClassLint.Toml.Basic

/-!
# TOML dates and times

A date, a time of day, or a date with a time of day and perhaps an offset from universal
time.  Each of them has one canonical form: fields of fixed width, a `T` between date and
time, no zeros at the end of a fraction, and an offset as hours and minutes.
-/

namespace ClassLint

namespace Toml

/-- A day of the calendar. -/
structure Date where
  year : Nat
  month : Nat
  day : Nat
  deriving DecidableEq, Repr

/-- A time of day. -/
structure TimeOfDay where
  hour : Nat
  minute : Nat
  second : Nat
  nanosecond : Nat
  deriving DecidableEq, Repr

/-- How far the time of a place is ahead of universal time. -/
inductive Offset where
  /-- Universal time, written as a letter. -/
  | universal
  /-- Ahead by some minutes, or behind if there are fewer than none. -/
  | ahead (minutes : Int)
  deriving DecidableEq, Repr

/-- A date, a time of day, or both. -/
inductive DateTime where
  | date (date : Date)
  | time (time : TimeOfDay)
  | both (date : Date) (time : TimeOfDay) (offset : Option Offset)
  deriving DecidableEq, Repr

/-! ## Canonical forms -/

/-- The last decimal digits of a number, so many of them. -/
def lastDigits : Nat → Nat → Text
  | 0, _ => []
  | width + 1, n => lastDigits width (n / 10) ++ [Nat.digitChar (n % 10)]

/-- A year of four digits, a month and a day of two digits each. -/
def Date.toText (d : Date) : Text :=
  lastDigits 4 d.year ++ '-' :: lastDigits 2 d.month ++ '-' :: lastDigits 2 d.day

/-- Hour, minute and second of two digits each, and a fraction unless it is zero. -/
def TimeOfDay.toText (t : TimeOfDay) : Text :=
  let whole := lastDigits 2 t.hour ++ ':' :: lastDigits 2 t.minute ++ ':' :: lastDigits 2 t.second
  if t.nanosecond = 0 then whole
  else whole ++ '.' :: ((lastDigits 9 t.nanosecond).reverse.dropWhile (· == '0')).reverse

/-- The letter of universal time, or a sign, hours and minutes; no difference counts as ahead. -/
def Offset.toText : Offset → Text
  | universal => ['Z']
  | ahead minutes =>
      let sign := if minutes < 0 then '-' else '+'
      sign :: lastDigits 2 (minutes.natAbs / 60) ++ ':' :: lastDigits 2 (minutes.natAbs % 60)

/-- The canonical form of a date, a time of day, or both. -/
def DateTime.toText : DateTime → Text
  | date d => d.toText
  | time t => t.toText
  | both d t offset => d.toText ++ 'T' :: t.toText ++ (offset.map Offset.toText).getD []

/-! ## Readers -/

/-- A number of exactly so many digits that is in the given range. -/
def readFixed (count low high : Nat) (s : Text) : Reading Nat :=
  let digits := s.take count
  if digits.length = count ∧ digits.all Char.isDigit then
    let n := Decimal.digitsValue 0 digits
    if low ≤ n ∧ n ≤ high then some (n, s.drop count) else none
  else none

/-- The number of days of a month. -/
def daysOfMonth (year month : Nat) : Nat :=
  if month = 2 then
    if year % 4 = 0 ∧ (year % 100 ≠ 0 ∨ year % 400 = 0) then 29 else 28
  else if month = 4 ∨ month = 6 ∨ month = 9 ∨ month = 11 then 30
  else 31

/-- A date. -/
def readDate (s : Text) : Option (Date × Text) := do
  let (year, s) ← readFixed 4 0 9999 s
  let s ← dropMark? '-' s
  let (month, s) ← readFixed 2 1 12 s
  let s ← dropMark? '-' s
  let (day, s) ← readFixed 2 1 (daysOfMonth year month) s
  return (⟨year, month, day⟩, s)

/-- The nanoseconds of the digits after the point; digits beyond the ninth are dropped. -/
def nanosecondsOf (digits : Text) : Nat :=
  Decimal.digitsValue 0 ((digits ++ List.replicate 9 '0').take 9)

/-- The nanoseconds of a fraction of a second, none if there is no fraction. -/
def readNanoseconds (s : Text) : Nat × Text :=
  match s with
  | '.' :: rest =>
      if rest.head?.any Char.isDigit then
        (nanosecondsOf (rest.takeWhile Char.isDigit), rest.dropWhile Char.isDigit)
      else (0, s)
  | _ => (0, s)

/-- A time of day; a minute may have a leap second. -/
def readTime (s : Text) : Option (TimeOfDay × Text) := do
  let (hour, s) ← readFixed 2 0 23 s
  let s ← dropMark? ':' s
  let (minute, s) ← readFixed 2 0 59 s
  let s ← dropMark? ':' s
  let (second, s) ← readFixed 2 0 60 s
  let (nanosecond, s) := readNanoseconds s
  return (⟨hour, minute, second, nanosecond⟩, s)

/-- Hours and minutes as minutes. -/
def readHoursAndMinutes (s : Text) : Option (Nat × Text) := do
  let (hours, s) ← readFixed 2 0 23 s
  let s ← dropMark? ':' s
  let (minutes, s) ← readFixed 2 0 59 s
  return (60 * hours + minutes, s)

/-- An offset from universal time. -/
def readOffset : Text → Reading Offset
  | [] => none
  | c :: s =>
      if c == 'Z' || c == 'z' then some (.universal, s)
      else if c == '+' then
        (readHoursAndMinutes s).map fun (minutes, rest) => (.ahead minutes, rest)
      else if c == '-' then
        (readHoursAndMinutes s).map fun (minutes, rest) => (.ahead (-(minutes : Int)), rest)
      else none

/-- What follows a date: a time of day, and after it perhaps an offset. -/
def readTimeAfter (d : Date) : Text → DateTime × Text
  | [] => (.date d, [])
  | c :: s =>
      if c == 'T' || c == 't' || c == ' ' then
        match readTime s with
        | some (t, rest) =>
            match readOffset rest with
            | some (offset, rest) => (.both d t (some offset), rest)
            | none => (.both d t none, rest)
        | none => (.date d, c :: s)
      else (.date d, c :: s)

/-- A date, a time of day, or both. -/
def readDateTime (s : Text) : Reading DateTime :=
  match readDate s with
  | some (d, rest) => some (readTimeAfter d rest)
  | none => (readTime s).map fun (t, rest) => (.time t, rest)

end Toml

end ClassLint
