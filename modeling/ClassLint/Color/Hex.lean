import ClassLint.Color.Rgba
import ClassLint.Text.Blank

/-!
# Hexadecimal colors

The written forms `#rrggbb` and `#rrggbbaa`.  Both cases of letters are read, lower case
is written, and full opacity is not written.
-/

namespace ClassLint

namespace Hex

/-- The hexadecimal digit of a number below sixteen. -/
def digit (n : Nat) : Char :=
  if n < 10 then Char.ofNat ('0'.toNat + n) else Char.ofNat ('a'.toNat + (n - 10))

/-- The number that a hexadecimal digit stands for. -/
def value? (c : Char) : Option Nat :=
  if '0' ≤ c ∧ c ≤ '9' then some (c.toNat - '0'.toNat)
  else if 'a' ≤ c ∧ c ≤ 'f' then some (c.toNat - 'a'.toNat + 10)
  else if 'A' ≤ c ∧ c ≤ 'F' then some (c.toNat - 'A'.toNat + 10)
  else none

/-- The two digits of a byte. -/
def writeByte (byte : UInt8) : Text :=
  [digit (byte.toNat / 16), digit (byte.toNat % 16)]

/-- The bytes that pairs of digits stand for. -/
def readBytes? : Text → Option (List UInt8)
  | [] => some []
  | [_] => none
  | high :: low :: rest =>
      match value? high, value? low, readBytes? rest with
      | some h, some l, some bytes => some ((16 * h + l).toUInt8 :: bytes)
      | _, _, _ => none

theorem value?_digit
    {n : Nat}
    (h : n < 16) :
    value? (digit n) = some n := by
  revert n
  decide

theorem readBytes?_writeByte_append
    (byte : UInt8) (s : Text) :
    readBytes? (writeByte byte ++ s) = (readBytes? s).map (List.cons byte) := by
  have hhigh : byte.toNat / 16 < 16 := Nat.div_lt_of_lt_mul byte.toNat_lt
  have hlow : byte.toNat % 16 < 16 := Nat.mod_lt _ (by decide)
  have hbyte : (16 * (byte.toNat / 16) + byte.toNat % 16).toUInt8 = byte := by
    rw [Nat.div_add_mod, Nat.toUInt8_eq, UInt8.ofNat_toNat]
  rw [writeByte, List.cons_append, List.cons_append, List.nil_append, readBytes?,
    value?_digit hhigh, value?_digit hlow]
  cases readBytes? s with
  | none => rfl
  | some bytes =>
      simp only [hbyte, Option.map_some]

theorem readBytes?_writeByte
    (byte : UInt8) :
    readBytes? (writeByte byte) = some [byte] := by
  have hread := readBytes?_writeByte_append byte []
  rwa [List.append_nil] at hread

end Hex

namespace Rgba8

/-- The written form of the bytes. -/
def toHex (c : Rgba8) : Text :=
  '#' :: ([c.r, c.g, c.b].flatMap Hex.writeByte ++ if c.a = 255 then [] else Hex.writeByte c.a)

/-- The bytes of a written form. -/
def ofHex? (raw : Text) : Option Rgba8 :=
  match raw.trim with
  | '#' :: digits =>
      match Hex.readBytes? digits with
      | some [r, g, b] => some ⟨r, g, b, 255⟩
      | some [r, g, b, a] => some ⟨r, g, b, a⟩
      | _ => none
  | _ => none

end Rgba8

namespace Rgba

/-- The color of a written form. -/
def ofHex? (raw : Text) : Option Rgba :=
  (Rgba8.ofHex? raw).map ofBytes

/-- The written form of the nearest bytes. -/
def toHex (c : Rgba) : Text :=
  c.toBytes.toHex

end Rgba

end ClassLint
