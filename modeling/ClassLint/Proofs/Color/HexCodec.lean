import ClassLint.Color.Hex
import ClassLint.Proofs.Text.Bytes
import ClassLint.Proofs.Text.LowerCase
import Mathlib

/-!
# Reading and writing hexadecimal colors

A color is read from pairs of digits, and its nearest bytes are written as such pairs.  A digit is
determined by its place among the sixteen digits up to the case of letters, so the written form of
what was read is the text in lower case.  Full opacity is not written, and it is what is read where
no opacity is written.

The number of the unit interval that a byte stands for is rounded, but by less than half a byte, so
that the byte is found again.

**Results.**
* `byteOfUnit_unitOfByte`: each of the 256 bytes is found again.
* `Hex.readBytes?_eq_some_iff`: what is read from pairs, and from which texts.
* `Hex.passesBytes_iff`: to count and check the bytes of a text is to count and check its
  characters.
* `hex_codec`: reading, writing, and both after each other.
-/

namespace ClassLint

namespace Hex

/-- The digits in lower case, in the order of their values. -/
def lowerDigits : Text :=
  "0123456789abcdef".toList

/-- The digits in both cases. -/
def digits : Text :=
  lowerDigits ++ "ABCDEF".toList

/-- The place of a digit among the sixteen, whatever its case. -/
def place (c : Char) : Nat :=
  lowerDigits.idxOf c.toLower

/-- The byte that two digits stand for. -/
def pairByte (high low : Char) : UInt8 :=
  (16 * place high + place low).toUInt8

/-- The bytes that the pairs of digits of a text stand for. -/
def pairBytes : Text → List UInt8
  | high :: low :: rest => pairByte high low :: pairBytes rest
  | _ => []

/-- A text that is a color in six or eight digits, apart from blanks at its ends. -/
structure IsColor (s colorDigits : Text) : Prop where
  trim_eq : s.trim = '#' :: colorDigits
  length_eq : colorDigits.length = 6 ∨ colorDigits.length = 8
  mem_digits : ∀ c ∈ colorDigits, c ∈ digits

/-- The byte of opacity that is read where none is written. -/
def impliedOpacity (colorDigits : Text) : List UInt8 :=
  if colorDigits.length = 6 then [255] else []

/-- The written form of a color with these digits, given their form in lower case: the opacity is
left out if it is full. -/
def withoutFullOpacity (colorDigits lowered : Text) : Text :=
  if colorDigits.length = 8 then (lowered.dropTail? "ff".toList).getD lowered else lowered

/-- Whether a byte is a digit. -/
def isDigitByte (b : UInt8) : Bool :=
  (0x30 ≤ b && b ≤ 0x39) || (0x41 ≤ b && b ≤ 0x46) || (0x61 ≤ b && b ≤ 0x66)

/-- The check of the bytes after the number sign: there are six or eight of them, all digits. -/
def passesBytes (s : Text) : Bool :=
  (s.bytes.length == 6 || s.bytes.length == 8) && s.bytes.all isDigitByte

/-! ## Single digits -/

/-- What holds of the digits is checked digit by digit. -/
theorem forall_mem_digits
    {p : Char → Prop} [DecidablePred p]
    (h : (digits.all fun c => decide (p c)) = true) :
    ∀ c ∈ digits, p c := by
  intro c hc
  exact of_decide_eq_true (List.all_eq_true.1 h c hc)

theorem mem_digits_iff
    {c : Char} :
    c ∈ digits ↔
      48 ≤ c.toNat ∧ c.toNat ≤ 57 ∨ 97 ≤ c.toNat ∧ c.toNat ≤ 102 ∨
        65 ≤ c.toNat ∧ c.toNat ≤ 70 := by
  constructor
  · have hranges : ∀ b ∈ digits,
        48 ≤ b.toNat ∧ b.toNat ≤ 57 ∨ 97 ≤ b.toNat ∧ b.toNat ≤ 102 ∨
          65 ≤ b.toNat ∧ b.toNat ≤ 70 :=
      forall_mem_digits (by decide)
    exact hranges c
  · intro h
    have hcodes : ∀ n ∈ List.range' 48 10 ++ (List.range' 97 6 ++ List.range' 65 6),
        Char.ofNat n ∈ digits := by
      decide
    rw [← Char.ofNat_toNat c]
    refine hcodes c.toNat ?_
    simp only [List.mem_append, List.mem_range'_1]
    omega

theorem value?_of_mem_digits :
    ∀ c ∈ digits, value? c = some (place c) ∧ place c < 16 ∧ digit (place c) = c.toLower :=
  forall_mem_digits (by decide)

/-- Only digits have a value. -/
theorem mem_digits_of_value?
    {c : Char} {n : Nat}
    (h : value? c = some n) :
    c ∈ digits := by
  rw [mem_digits_iff]
  unfold value? at h
  split at h
  · next hrange => exact Or.inl hrange
  · split at h
    · next hrange => exact Or.inr (Or.inl hrange)
    · split at h
      · next hrange => exact Or.inr (Or.inr hrange)
      · cases h

theorem digit_mem_digits
    {n : Nat}
    (h : n < 16) :
    digit n ∈ digits :=
  mem_digits_of_value? (value?_digit h)

theorem isBlank_of_mem_digits :
    ∀ c ∈ digits, isBlank c = false :=
  forall_mem_digits (by decide)

/-! ## Pairs of digits -/

theorem exists_pair_of_two_le_length
    {s : Text}
    (h : 2 ≤ s.length) :
    ∃ high low rest, s = high :: low :: rest := by
  obtain ⟨high, tail, rfl⟩ := List.exists_cons_of_length_pos (by omega : 0 < s.length)
  rw [List.length_cons] at h
  obtain ⟨low, rest, rfl⟩ := List.exists_cons_of_length_pos (by omega : 0 < tail.length)
  exact ⟨high, low, rest, rfl⟩

theorem eq_nil_of_no_pair
    {s : Text}
    (hshort : ∀ high low rest, s = high :: low :: rest → False)
    (heven : s.length % 2 = 0) :
    s = [] := by
  by_contra hne
  have hpos : 0 < s.length := List.length_pos_iff.2 hne
  obtain ⟨high, low, rest, hs⟩ := exists_pair_of_two_le_length (by omega : 2 ≤ s.length)
  exact hshort high low rest hs

theorem mem_digits_of_mem_writeByte
    {byte : UInt8} {c : Char}
    (h : c ∈ writeByte byte) :
    c ∈ digits := by
  have hhigh : byte.toNat / 16 < 16 := Nat.div_lt_of_lt_mul byte.toNat_lt
  have hlow : byte.toNat % 16 < 16 := Nat.mod_lt _ (by decide)
  simp only [writeByte, List.mem_cons, List.not_mem_nil, or_false] at h
  rcases h with rfl | rfl
  · exact digit_mem_digits hhigh
  · exact digit_mem_digits hlow

theorem toNat_pairByte
    {high low : Char}
    (hhigh : high ∈ digits)
    (hlow : low ∈ digits) :
    (pairByte high low).toNat = 16 * place high + place low := by
  have hplaces : 16 * place high + place low < 256 := by
    have := (value?_of_mem_digits high hhigh).2.1
    have := (value?_of_mem_digits low hlow).2.1
    omega
  rw [pairByte, Nat.toUInt8_eq, UInt8.toNat_ofNat', Nat.mod_eq_of_lt hplaces]

/-- A byte that was read is written with the letters of its digits in lower case. -/
theorem writeByte_pairByte
    {high low : Char}
    (hhigh : high ∈ digits)
    (hlow : low ∈ digits) :
    writeByte (pairByte high low) = [high.toLower, low.toLower] := by
  obtain ⟨-, -, hwriteHigh⟩ := value?_of_mem_digits high hhigh
  obtain ⟨-, hlt, hwriteLow⟩ := value?_of_mem_digits low hlow
  have hdiv : (16 * place high + place low) / 16 = place high := by omega
  have hmod : (16 * place high + place low) % 16 = place low := by omega
  rw [writeByte, toNat_pairByte hhigh hlow, hdiv, hmod, hwriteHigh, hwriteLow]

theorem readBytes?_of_mem_digits
    {s : Text}
    (hdigits : ∀ c ∈ s, c ∈ digits)
    (heven : s.length % 2 = 0) :
    readBytes? s = some (pairBytes s) := by
  fun_induction pairBytes s with
  | case1 high low rest ih =>
      have hlength : rest.length % 2 = 0 := by
        simp only [List.length_cons] at heven
        omega
      have hrest := ih (fun c hc => hdigits c (by simp [hc])) hlength
      have hhigh := (value?_of_mem_digits high (hdigits high (by simp))).1
      have hlow := (value?_of_mem_digits low (hdigits low (by simp))).1
      simp only [readBytes?, hhigh, hlow, hrest, pairByte]
  | case2 s hshort =>
      rw [eq_nil_of_no_pair hshort heven]
      rfl

/-- Only pairs of digits are read. -/
theorem mem_digits_of_readBytes?
    {s : Text} {bytes : List UInt8}
    (h : readBytes? s = some bytes) :
    (∀ c ∈ s, c ∈ digits) ∧ s.length = 2 * bytes.length := by
  fun_induction readBytes? s generalizing bytes with
  | case1 =>
      cases h
      simp
  | case2 => cases h
  | case3 high low rest highValue lowValue more hrest hlow hhigh ih =>
      cases h
      obtain ⟨hdigits, hlength⟩ := ih hrest
      constructor
      · intro c hc
        rcases List.mem_cons.1 hc with rfl | hc
        · exact mem_digits_of_value? hhigh
        · rcases List.mem_cons.1 hc with rfl | hc
          · exact mem_digits_of_value? hlow
          · exact hdigits c hc
      · simp only [List.length_cons, hlength]
        omega
  | case4 => cases h

theorem readBytes?_eq_some_iff
    {s : Text} {bytes : List UInt8} :
    readBytes? s = some bytes ↔
      (∀ c ∈ s, c ∈ digits) ∧ s.length = 2 * bytes.length ∧ bytes = pairBytes s := by
  constructor
  · intro h
    obtain ⟨hdigits, hlength⟩ := mem_digits_of_readBytes? h
    refine ⟨hdigits, hlength, ?_⟩
    rw [readBytes?_of_mem_digits hdigits (by omega), Option.some_inj] at h
    exact h.symm
  · rintro ⟨hdigits, hlength, rfl⟩
    exact readBytes?_of_mem_digits hdigits (by omega)

theorem flatMap_writeByte_pairBytes
    {s : Text}
    (hdigits : ∀ c ∈ s, c ∈ digits)
    (heven : s.length % 2 = 0) :
    (pairBytes s).flatMap writeByte = s.lower := by
  fun_induction pairBytes s with
  | case1 high low rest ih =>
      have hlength : rest.length % 2 = 0 := by
        simp only [List.length_cons] at heven
        omega
      have hrest := ih (fun c hc => hdigits c (by simp [hc])) hlength
      have hpair := writeByte_pairByte (hdigits high (by simp)) (hdigits low (by simp))
      rw [List.flatMap_cons, hpair, hrest]
      rfl
  | case2 s hshort =>
      rw [eq_nil_of_no_pair hshort heven]
      rfl

theorem readBytes?_flatMap_writeByte
    (bytes : List UInt8) :
    readBytes? (bytes.flatMap writeByte) = some bytes := by
  induction bytes with
  | nil => rfl
  | cons byte bytes ih =>
      rw [List.flatMap_cons, readBytes?_writeByte_append, ih, Option.map_some]

theorem mem_digits_of_mem_writeBytes
    {bytes : List UInt8} {c : Char}
    (h : c ∈ bytes.flatMap writeByte) :
    c ∈ digits := by
  obtain ⟨byte, -, hc⟩ := List.mem_flatMap.1 h
  exact mem_digits_of_mem_writeByte hc

/-! ## Pairs of bytes of the text -/

theorem utf8EncodeChar_of_mem_digits :
    ∀ c ∈ digits, String.utf8EncodeChar c = [Byte.ofAscii c] :=
  forall_mem_digits (by decide)

theorem bytes_of_mem_digits
    {s : Text}
    (h : ∀ c ∈ s, c ∈ digits) :
    s.bytes = s.map Byte.ofAscii := by
  induction s with
  | nil => rfl
  | cons c s ih =>
      rw [Text.bytes_cons, utf8EncodeChar_of_mem_digits c (h c List.mem_cons_self),
        ih fun d hd => h d (List.mem_cons_of_mem c hd)]
      rfl

theorem isDigitByte_iff
    {b : UInt8} :
    isDigitByte b = true ↔
      48 ≤ b.toNat ∧ b.toNat ≤ 57 ∨ 97 ≤ b.toNat ∧ b.toNat ≤ 102 ∨
        65 ≤ b.toNat ∧ b.toNat ≤ 70 := by
  simp only [isDigitByte, Bool.or_eq_true, Bool.and_eq_true, decide_eq_true_eq,
    UInt8.le_iff_toNat_le]
  change (48 ≤ b.toNat ∧ b.toNat ≤ 57 ∨ 65 ≤ b.toNat ∧ b.toNat ≤ 70) ∨
    97 ≤ b.toNat ∧ b.toNat ≤ 102 ↔ _
  omega

theorem isDigitByte_ofAscii :
    ∀ c ∈ digits, isDigitByte (Byte.ofAscii c) = true :=
  forall_mem_digits (by decide)

/-- A text all of whose bytes are digits has no longer characters, and all of them are digits. -/
theorem mem_digits_of_isDigitByte
    {s : Text}
    (h : ∀ b ∈ s.bytes, isDigitByte b = true) :
    ∀ c ∈ s, c ∈ digits := by
  intro c hc
  have hmem : ∀ b ∈ String.utf8EncodeChar c, b ∈ s.bytes := fun b hb =>
    List.mem_flatMap.2 ⟨c, hc, hb⟩
  have hne : String.utf8EncodeChar c ≠ [] := String.utf8EncodeChar_ne_nil
  obtain ⟨b, hb⟩ := List.exists_mem_of_ne_nil _ hne
  have hrange := isDigitByte_iff.1 (h b (hmem b hb))
  -- The bytes of a longer character are all above those of the digits.
  have hsingle := Text.utf8EncodeChar_eq_singleton_of_mem hb (by omega)
  rw [mem_digits_iff, Text.toNat_of_utf8EncodeChar hsingle]
  exact hrange

/-- The check of the bytes is a check of the characters. -/
theorem passesBytes_iff
    {s : Text} :
    passesBytes s = true ↔ (s.length = 6 ∨ s.length = 8) ∧ ∀ c ∈ s, c ∈ digits := by
  simp only [passesBytes, Bool.and_eq_true, Bool.or_eq_true, beq_iff_eq, List.all_eq_true]
  constructor
  · rintro ⟨hlength, hbytes⟩
    have hdigits := mem_digits_of_isDigitByte hbytes
    rw [bytes_of_mem_digits hdigits, List.length_map] at hlength
    exact ⟨hlength, hdigits⟩
  · rintro ⟨hlength, hdigits⟩
    rw [bytes_of_mem_digits hdigits, List.length_map]
    refine ⟨hlength, ?_⟩
    intro b hb
    obtain ⟨c, hc, rfl⟩ := List.mem_map.1 hb
    exact isDigitByte_ofAscii c (hdigits c hc)

/-- Behind a number sign the check of the bytes decides whether a text is a color. -/
theorem exists_isColor_iff
    {s hex : Text}
    (htrim : s.trim = '#' :: hex) :
    (∃ colorDigits, IsColor s colorDigits) ↔ passesBytes hex = true := by
  rw [passesBytes_iff]
  constructor
  · rintro ⟨colorDigits, htrim', hlength, hdigits⟩
    obtain rfl : colorDigits = hex := (List.cons.inj (htrim'.symm.trans htrim)).2
    exact ⟨hlength, hdigits⟩
  · rintro ⟨hlength, hdigits⟩
    exact ⟨hex, htrim, hlength, hdigits⟩

theorem getElem?_pairBytes
    {n : Nat} {left : Text}
    (hleft : left.length = 2 * n)
    (high low : Char) (right : Text) :
    (pairBytes (left ++ high :: low :: right))[n]? = some (pairByte high low) := by
  induction n generalizing left with
  | zero =>
      rw [List.eq_nil_of_length_eq_zero hleft]
      rfl
  | succ n ih =>
      obtain ⟨first, second, rest, rfl⟩ :=
        exists_pair_of_two_le_length (by omega : 2 ≤ left.length)
      have hrest : rest.length = 2 * n := by
        simp only [List.length_cons] at hleft
        omega
      simpa [pairBytes] using ih hrest

/-- In a text that passes the check the pairs can be cut out at their offsets in bytes. -/
theorem slice?_of_passesBytes
    {s : Text} {n : Nat}
    (h : passesBytes s = true)
    (hn : 2 * n + 2 ≤ s.bytes.length) :
    ∃ high low, s.slice? (2 * n) (2 * n + 2) = some [high, low] ∧ high ∈ digits ∧ low ∈ digits ∧
      (pairBytes s)[n]? = some (pairByte high low) := by
  have hdigits := (passesBytes_iff.1 h).2
  -- Every character is one byte, so that an offset counts characters.
  have hbytes {t : Text} (ht : ∀ c ∈ t, c ∈ digits) : t.bytes.length = t.length := by
    rw [bytes_of_mem_digits ht, List.length_map]
  rw [hbytes hdigits] at hn
  have hleft : (s.take (2 * n)).length = 2 * n := by
    rw [List.length_take]
    omega
  have hright : 2 ≤ (s.drop (2 * n)).length := by
    rw [List.length_drop]
    omega
  obtain ⟨high, low, right, hdrop⟩ := exists_pair_of_two_le_length hright
  have hsplit : s = s.take (2 * n) ++ high :: low :: right := by
    rw [← hdrop, List.take_append_drop]
  have hhigh : high ∈ digits := hdigits high (by rw [hsplit]; simp)
  have hlow : low ∈ digits := hdigits low (by rw [hsplit]; simp)
  refine ⟨high, low, ?_, hhigh, hlow, ?_⟩
  · rw [Text.slice?_eq_some_iff]
    refine ⟨s.take (2 * n), right, hsplit, ?_, ?_⟩
    · rw [hbytes fun c hc => hdigits c (List.mem_of_mem_take hc), hleft]
    · rw [hbytes]
      · rfl
      · simp [hhigh, hlow]
  · rw [hsplit]
    exact getElem?_pairBytes hleft high low right

end Hex

/-! ## Colors -/

namespace Rgba8

theorem toHex_eq
    (c : Rgba8) :
    c.toHex =
      '#' :: (if c.a = 255 then [c.r, c.g, c.b] else c.toList).flatMap Hex.writeByte := by
  unfold toHex toList
  split <;> simp

/-- What is written is read again. -/
theorem ofHex?_toHex
    (c : Rgba8) :
    ofHex? c.toHex = some c := by
  have hblank : c.toHex.hasBlank = false := by
    rw [toHex_eq, Text.hasBlank_cons_eq_false_iff]
    refine ⟨by decide, ?_⟩
    rw [Text.hasBlank, List.any_eq_false]
    intro d hd
    rw [Hex.isBlank_of_mem_digits d (Hex.mem_digits_of_mem_writeBytes hd)]
    exact Bool.false_ne_true
  unfold ofHex?
  rw [Text.trim_of_hasBlank hblank, toHex_eq]
  simp only [Hex.readBytes?_flatMap_writeByte]
  obtain ⟨r, g, b, a⟩ := c
  by_cases ha : a = 255
  · simp only [ha, if_true]
  · simp only [ha, if_false, toList]

theorem isColor_of_ofHex?
    {s : Text} {c : Rgba8}
    (h : ofHex? s = some c) :
    ∃ colorDigits, Hex.IsColor s colorDigits := by
  unfold ofHex? at h
  split at h
  · next colorDigits htrim =>
      split at h
      · next hread =>
          obtain ⟨hdigits, hlength⟩ := Hex.mem_digits_of_readBytes? hread
          exact ⟨colorDigits, htrim, Or.inl hlength, hdigits⟩
      · next hread =>
          obtain ⟨hdigits, hlength⟩ := Hex.mem_digits_of_readBytes? hread
          exact ⟨colorDigits, htrim, Or.inr hlength, hdigits⟩
      · cases h
  · cases h

theorem readBytes?_of_isColor
    {s colorDigits : Text}
    (h : Hex.IsColor s colorDigits) :
    Hex.readBytes? colorDigits = some (Hex.pairBytes colorDigits) :=
  Hex.readBytes?_of_mem_digits h.mem_digits (by rcases h.length_eq with h | h <;> omega)

theorem exists_ofHex?_of_isColor
    {s colorDigits : Text}
    (h : Hex.IsColor s colorDigits) :
    ∃ c, ofHex? s = some c ∧
      c.toList = Hex.pairBytes colorDigits ++ Hex.impliedOpacity colorDigits := by
  have hread := readBytes?_of_isColor h
  obtain ⟨-, hlength, -⟩ := Hex.readBytes?_eq_some_iff.1 hread
  unfold ofHex? Hex.impliedOpacity
  simp only [h.trim_eq, hread]
  rcases h.length_eq with hsix | height
  · obtain ⟨r, g, b, hbytes⟩ := List.length_eq_three.1
      (show (Hex.pairBytes colorDigits).length = 3 by omega)
    exact ⟨⟨r, g, b, 255⟩, by rw [hbytes], by rw [hbytes, if_pos hsix]; rfl⟩
  · obtain ⟨r, rest, hbytes⟩ := List.exists_cons_of_length_eq_add_one
      (show (Hex.pairBytes colorDigits).length = 3 + 1 by omega)
    have hrest : rest.length = 3 := by
      rw [hbytes, List.length_cons] at hlength
      omega
    obtain ⟨g, b, a, rfl⟩ := List.length_eq_three.1 hrest
    exact ⟨⟨r, g, b, a⟩, by rw [hbytes], by rw [hbytes, if_neg (by omega)]; rfl⟩

theorem lower_trim_of_isColor
    {s colorDigits : Text}
    (h : Hex.IsColor s colorDigits) :
    s.trim.lower = '#' :: (Hex.pairBytes colorDigits).flatMap Hex.writeByte := by
  have heven : colorDigits.length % 2 = 0 := by
    rcases h.length_eq with h | h <;> omega
  rw [h.trim_eq, Hex.flatMap_writeByte_pairBytes h.mem_digits heven]
  rfl

theorem eq_of_writeByte_eq
    {b c : UInt8}
    (h : Hex.writeByte b = Hex.writeByte c) :
    b = c := by
  have hread := Hex.readBytes?_writeByte b
  rw [h, Hex.readBytes?_writeByte] at hread
  simpa using hread.symm

/-- What was read is written as its text in lower case, without an opacity that is full. -/
theorem toHex_of_isColor
    {s colorDigits : Text} {c : Rgba8}
    (h : Hex.IsColor s colorDigits)
    (hc : c.toList = Hex.pairBytes colorDigits ++ Hex.impliedOpacity colorDigits) :
    c.toHex = Hex.withoutFullOpacity colorDigits s.trim.lower := by
  obtain ⟨r, g, b, a⟩ := c
  unfold Hex.impliedOpacity toList at hc
  unfold Hex.withoutFullOpacity
  rw [lower_trim_of_isColor h, toHex_eq]
  rcases h.length_eq with hsix | height
  · -- The opacity is the implied one, which is full.
    rw [if_pos hsix] at hc
    have hbytes : [r, g, b] ++ [a] = Hex.pairBytes colorDigits ++ [255] := hc
    obtain ⟨hbytes, ha⟩ := List.append_inj' hbytes rfl
    rw [← hbytes, if_pos (List.singleton_inj.1 ha), if_neg (by omega)]
  · rw [if_neg (by omega), List.append_nil] at hc
    rw [← hc, if_pos height]
    have hwhole : '#' :: [r, g, b, a].flatMap Hex.writeByte =
        '#' :: [r, g, b].flatMap Hex.writeByte ++ Hex.writeByte a := by
      simp
    by_cases ha : a = 255
    · have hdrop : Text.dropTail? ('#' :: [r, g, b, a].flatMap Hex.writeByte) "ff".toList =
          some ('#' :: [r, g, b].flatMap Hex.writeByte) := by
        rw [Text.dropTail?_eq_some_iff, hwhole, ha]
        rfl
      rw [hdrop, if_pos ha, Option.getD_some]
    · have hdrop : Text.dropTail? ('#' :: [r, g, b, a].flatMap Hex.writeByte) "ff".toList =
          none := by
        rw [Option.eq_none_iff_forall_ne_some]
        intro rest hrest
        rw [Text.dropTail?_eq_some_iff, hwhole] at hrest
        exact ha (eq_of_writeByte_eq (List.append_inj' hrest rfl).2)
      rw [hdrop, if_neg ha, Option.getD_none]
      rfl

end Rgba8

/-! ## Bytes and the unit interval -/

/-- To take a byte to the unit interval and back gives the byte, as the 256 cases show. -/
theorem byteOfUnit_unitOfByte
    (byte : UInt8) :
    byteOfUnit (unitOfByte byte) = byte := by
  have hall : ∀ n < 256, byteOfUnit (unitOfByte (UInt8.ofNat n)) = UInt8.ofNat n := by
    decide +kernel
  rw [← UInt8.ofNat_toNat (x := byte)]
  exact hall byte.toNat byte.toNat_lt

theorem Rgba.toBytes_ofBytes
    (c : Rgba8) :
    (Rgba.ofBytes c).toBytes = c := by
  simp only [Rgba.ofBytes, Rgba.toBytes, byteOfUnit_unitOfByte]

theorem Rgba.isSome_ofHex?_iff
    {s : Text} :
    (Rgba.ofHex? s).isSome = true ↔ ∃ colorDigits, Hex.IsColor s colorDigits := by
  rw [Rgba.ofHex?, Option.isSome_map]
  constructor
  · intro h
    obtain ⟨c, hc⟩ := Option.isSome_iff_exists.1 h
    exact Rgba8.isColor_of_ofHex? hc
  · rintro ⟨colorDigits, h⟩
    obtain ⟨c, hc, -⟩ := Rgba8.exists_ofHex?_of_isColor h
    rw [hc]
    rfl

/--
**Hexadecimal colors.**  A text is read exactly if it is, but for blanks at its ends, a number sign
and six or eight digits.  The color then has the bytes of the pairs of digits, with full opacity
for six digits, and is written as the text in lower case, without an opacity of `ff`.  Every
color, whatever its channels are, is written as a text that is read as a color of the same bytes
and the same written form.  Behind the number sign the check of the bytes decides whether a text is
read, and in a text that passes it every pair of digits can be cut out at its offset.
-/
theorem hex_codec :
    (∀ s : Text, (Rgba.ofHex? s).isSome = true ↔ ∃ colorDigits, Hex.IsColor s colorDigits) ∧
    (∀ s colorDigits : Text, Hex.IsColor s colorDigits →
      ∃ c, Rgba.ofHex? s = some c ∧
        c.toBytes.toList = Hex.pairBytes colorDigits ++ Hex.impliedOpacity colorDigits ∧
        c.toHex = Hex.withoutFullOpacity colorDigits s.trim.lower) ∧
    (∀ c : Rgba, ∃ d, Rgba.ofHex? c.toHex = some d ∧ d.toBytes = c.toBytes ∧
      d.toHex = c.toHex) ∧
    ∀ s hex : Text, s.trim = '#' :: hex →
      ((Rgba.ofHex? s).isSome = true ↔ Hex.passesBytes hex = true) ∧
      (Hex.passesBytes hex = true → ∀ n, 2 * n + 2 ≤ hex.bytes.length →
        ∃ high low, hex.slice? (2 * n) (2 * n + 2) = some [high, low] ∧
          high ∈ Hex.digits ∧ low ∈ Hex.digits ∧
          (Hex.pairBytes hex)[n]? = some (Hex.pairByte high low)) := by
  refine ⟨fun s => Rgba.isSome_ofHex?_iff, fun s colorDigits h => ?_, fun c => ?_,
    fun s hex htrim => ⟨?_, fun h n hn => Hex.slice?_of_passesBytes h hn⟩⟩
  · obtain ⟨c, hread, hbytes⟩ := Rgba8.exists_ofHex?_of_isColor h
    refine ⟨Rgba.ofBytes c, by rw [Rgba.ofHex?, hread]; rfl, ?_, ?_⟩
    · rw [Rgba.toBytes_ofBytes, hbytes]
    · rw [Rgba.toHex, Rgba.toBytes_ofBytes, Rgba8.toHex_of_isColor h hbytes]
  · refine ⟨Rgba.ofBytes c.toBytes, ?_, Rgba.toBytes_ofBytes _, ?_⟩
    · rw [Rgba.ofHex?, Rgba.toHex, Rgba8.ofHex?_toHex]
      rfl
    · rw [Rgba.toHex, Rgba.toBytes_ofBytes, Rgba.toHex]
  · rw [Rgba.isSome_ofHex?_iff, Hex.exists_isColor_iff htrim]

/-- Eight digits in both cases between blanks; the opacity is full and is not written. -/
theorem hex_codec_fullOpacity :
    (∃ c, Rgba.ofHex? "\u2003#2B7FfFfF ".toList = some c ∧
      c.toBytes.toList = [0x2B, 0x7F, 0xFF, 0xFF] ∧ c.toHex = "#2b7fff".toList) ∧
    ∃ high low, Text.slice? "2B7FfFfF".toList 6 8 = some [high, low] ∧ high ∈ Hex.digits ∧
      low ∈ Hex.digits ∧ (Hex.pairBytes "2B7FfFfF".toList)[3]? = some (Hex.pairByte high low) := by
  have hdigits : ∀ c ∈ "2B7FfFfF".toList, c ∈ Hex.digits := by
    have hall : ("2B7FfFfF".toList.all Hex.digits.contains) = true := by decide
    exact fun c hc => List.contains_iff_mem.1 (List.all_eq_true.1 hall c hc)
  have htrim : Text.trim "\u2003#2B7FfFfF ".toList = '#' :: "2B7FfFfF".toList := by decide
  have hcolor : Hex.IsColor "\u2003#2B7FfFfF ".toList "2B7FfFfF".toList :=
    ⟨htrim, Or.inr rfl, hdigits⟩
  constructor
  · obtain ⟨c, hread, hbytes, hwritten⟩ := hex_codec.2.1 _ _ hcolor
    have hpairs : Hex.pairBytes "2B7FfFfF".toList ++ Hex.impliedOpacity "2B7FfFfF".toList =
        [0x2B, 0x7F, 0xFF, 0xFF] := by
      decide
    have hshort : Hex.withoutFullOpacity "2B7FfFfF".toList
        (Text.lower (Text.trim "\u2003#2B7FfFfF ".toList)) = "#2b7fff".toList := by
      decide
    exact ⟨c, hread, hbytes.trans hpairs, hwritten.trans hshort⟩
  · have hchecked : Hex.passesBytes "2B7FfFfF".toList = true :=
      Hex.passesBytes_iff.2 ⟨Or.inr rfl, hdigits⟩
    have hbytes : (Text.bytes "2B7FfFfF".toList).length = 8 := by
      rw [Hex.bytes_of_mem_digits hdigits]
      rfl
    exact (hex_codec.2.2.2 _ _ htrim).2 hchecked 3 hbytes.ge

end ClassLint
