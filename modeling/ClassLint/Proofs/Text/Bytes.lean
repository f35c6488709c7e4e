import ClassLint.Source.ClassString

/-!
# Cutting texts at bytes

The source is searched by bytes, and what is found is cut out of the text between two byte
offsets.  Such a cut is only possible between characters, so the cuts here are partial: they
fail where an offset is past the end or falls inside of a character.

**Results.**
* `slice?_eq_some_iff`: what a successful cut says about its offsets.
* `split_of_bytes_eq`: an ASCII byte is a character of its own wherever it stands.
-/

namespace ClassLint

namespace Text

@[simp] theorem bytes_nil :
    bytes [] = [] := by
  rfl

@[simp] theorem bytes_cons
    (c : Char) (s : Text) :
    bytes (c :: s) = String.utf8EncodeChar c ++ bytes s := by
  rfl

@[simp] theorem bytes_append
    (s t : Text) :
    bytes (s ++ t) = bytes s ++ bytes t := by
  induction s with
  | nil => rfl
  | cons c s ih => simp [ih]

/-- Texts with the same bytes are the same. -/
theorem eq_of_bytes_eq
    {s t : Text}
    (h : s.bytes = t.bytes) :
    s = t := by
  have hencode : List.utf8Encode s = List.utf8Encode t := by
    unfold bytes at h
    rw [List.utf8Encode, List.utf8Encode, h]
  rw [← String.toByteArray_ofList, ← String.toByteArray_ofList, String.toByteArray_inj] at hencode
  exact String.ofList_injective hencode

theorem length_bytes_cons
    (c : Char) (s : Text) :
    (bytes (c :: s)).length = c.utf8Size + (bytes s).length := by
  simp

/-- The first characters of a text that fill the given number of bytes, and the rest of the text. -/
def splitAtByte? : Nat → Text → Option (Text × Text)
  | 0, s => some ([], s)
  | _ + 1, [] => none
  | size + 1, c :: s =>
      if c.utf8Size ≤ size + 1 then
        (splitAtByte? (size + 1 - c.utf8Size) s).map fun (left, right) => (c :: left, right)
      else none

/-- The characters from one byte offset up to another. -/
def slice? (s : Text) (start stop : Nat) : Option Text :=
  if start ≤ stop then
    (splitAtByte? start s).bind fun (_, rest) =>
      (splitAtByte? (stop - start) rest).map Prod.fst
  else none

/-- A byte offset that falls inside of no character. -/
def IsBoundary (s : Text) (offset : Nat) : Prop :=
  ∃ left right, s = left ++ right ∧ left.bytes.length = offset

theorem splitAtByte?_append
    (left right : Text) :
    splitAtByte? left.bytes.length (left ++ right) = some (left, right) := by
  induction left with
  | nil => cases right <;> rfl
  | cons c left ih =>
      have hpos := c.utf8Size_pos
      obtain ⟨size, hsize⟩ : ∃ size, c.utf8Size + (bytes left).length = size + 1 :=
        ⟨c.utf8Size + (bytes left).length - 1, by omega⟩
      have hrest : size + 1 - c.utf8Size = (bytes left).length := by
        omega
      have hle : c.utf8Size ≤ size + 1 := by
        omega
      rw [length_bytes_cons, hsize]
      simp only [List.cons_append, splitAtByte?, if_pos hle, hrest, ih, Option.map_some]

theorem splitAtByte?_eq_some_iff
    {size : Nat} {s left right : Text} :
    splitAtByte? size s = some (left, right) ↔ s = left ++ right ∧ left.bytes.length = size := by
  constructor
  · intro h
    induction s generalizing size left with
    | nil =>
        cases size with
        | zero =>
            cases h
            exact ⟨rfl, rfl⟩
        | succ size => cases h
    | cons c s ih =>
        cases size with
        | zero =>
            cases h
            exact ⟨rfl, rfl⟩
        | succ size =>
            simp only [splitAtByte?] at h
            split at h
            · next hle =>
                obtain ⟨⟨l, r⟩, hsplit, heq⟩ := Option.map_eq_some_iff.1 h
                cases heq
                obtain ⟨rfl, hlength⟩ := ih hsplit
                refine ⟨rfl, ?_⟩
                have hl : (bytes l).length = size + 1 - c.utf8Size := hlength
                rw [length_bytes_cons, hl]
                omega
            · cases h
  · rintro ⟨rfl, rfl⟩
    exact splitAtByte?_append left right

theorem slice?_eq_some_iff
    {s value : Text} {start stop : Nat} :
    s.slice? start stop = some value ↔
      ∃ left right, s = left ++ (value ++ right) ∧ left.bytes.length = start ∧
        stop = start + value.bytes.length := by
  unfold slice?
  constructor
  · intro h
    split at h
    · next hle =>
        obtain ⟨⟨left, rest⟩, hleft, h⟩ := Option.bind_eq_some_iff.1 h
        obtain ⟨⟨v, right⟩, hvalue, rfl⟩ := Option.map_eq_some_iff.1 h
        obtain ⟨rfl, hstart⟩ := splitAtByte?_eq_some_iff.1 hleft
        obtain ⟨rfl, hlength⟩ := splitAtByte?_eq_some_iff.1 hvalue
        refine ⟨left, right, rfl, hstart, ?_⟩
        show stop = start + v.bytes.length
        omega
    · cases h
  · rintro ⟨left, right, rfl, rfl, rfl⟩
    have hlength : left.bytes.length + value.bytes.length - left.bytes.length =
        value.bytes.length := by
      omega
    simp [splitAtByte?_append, hlength]

/-- Where a text can be cut, the offsets are in order, within the text, and between characters. -/
theorem bounds_of_slice?
    {s value : Text} {start stop : Nat}
    (h : s.slice? start stop = some value) :
    start ≤ stop ∧ stop ≤ s.bytes.length ∧ s.IsBoundary start ∧ s.IsBoundary stop := by
  obtain ⟨left, right, rfl, rfl, rfl⟩ := slice?_eq_some_iff.1 h
  refine ⟨by omega, ?_, ⟨left, value ++ right, rfl, rfl⟩, ⟨left ++ value, right, ?_, ?_⟩⟩
  · simp only [bytes_append, List.length_append]
    omega
  · exact (List.append_assoc left value right).symm
  · simp only [bytes_append, List.length_append]

theorem takeBytes_append
    (left right : Text) :
    takeBytes left.bytes.length (left ++ right) = left := by
  induction left with
  | nil => cases right <;> rfl
  | cons c left ih =>
      have hpos := c.utf8Size_pos
      have hne : (bytes (c :: left)).length ≠ 0 := by
        rw [length_bytes_cons]
        omega
      have hrest : (bytes (c :: left)).length - c.utf8Size = (bytes left).length := by
        rw [length_bytes_cons]
        omega
      simp only [List.cons_append, takeBytes, if_neg hne, hrest, ih]

/-- A byte below `0x80` in the form of a character is all of that form. -/
theorem utf8EncodeChar_eq_singleton_of_mem
    {c : Char} {b : UInt8}
    (mem : b ∈ String.utf8EncodeChar c)
    (ascii : b.toNat < 0x80) :
    String.utf8EncodeChar c = [b] := by
  unfold String.utf8EncodeChar at mem ⊢
  simp only at mem ⊢
  split at mem
  · next h =>
      rw [List.mem_singleton.1 mem, if_pos h]
  · exfalso
    -- Every byte of a longer form carries one of the leading marks `0x80`, `0xC0`, `0xE0`, `0xF0`.
    have hc := c.val.toNat_lt
    split at mem
    · simp only [List.mem_cons, List.not_mem_nil, or_false] at mem
      rcases mem with rfl | rfl <;> simp only [UInt8.toNat_ofNat'] at ascii <;> omega
    · split at mem
      · simp only [List.mem_cons, List.not_mem_nil, or_false] at mem
        rcases mem with rfl | rfl | rfl <;> simp only [UInt8.toNat_ofNat'] at ascii <;> omega
      · simp only [List.mem_cons, List.not_mem_nil, or_false] at mem
        rcases mem with rfl | rfl | rfl | rfl <;>
          simp only [UInt8.toNat_ofNat'] at ascii <;> omega

/-- A character with a form of one byte is the character of that byte. -/
theorem toNat_of_utf8EncodeChar
    {c : Char} {b : UInt8}
    (h : String.utf8EncodeChar c = [b]) :
    c.toNat = b.toNat := by
  unfold String.utf8EncodeChar at h
  simp only at h
  split at h
  · next hsmall =>
      obtain rfl := List.head_eq_of_cons_eq h
      have hcode : c.val.toNat < 256 := by omega
      rw [UInt8.toNat_ofNat', Nat.mod_eq_of_lt hcode]
      rfl
  · split at h
    · cases h
    · split at h <;> cases h

/-- Where an ASCII byte stands among the bytes of a text, a character of the text stands. -/
theorem split_of_bytes_eq
    {s : Text} {left right : List UInt8} {b : UInt8}
    (ascii : b.toNat < 0x80)
    (h : s.bytes = left ++ b :: right) :
    ∃ (before : Text) (c : Char) (after : Text),
      s = before ++ c :: after ∧ String.utf8EncodeChar c = [b] ∧ before.bytes = left ∧
        after.bytes = right := by
  induction s generalizing left with
  | nil => simp at h
  | cons c s ih =>
      rw [bytes_cons] at h
      rcases List.append_eq_append_iff.1 h with ⟨more, hleft, hs⟩ | ⟨more, hc, hb⟩
      · obtain ⟨before, d, after, rfl, hd, rfl, rfl⟩ := ih hs
        exact ⟨c :: before, d, after, rfl, hd, by simp [hleft], rfl⟩
      · cases more with
        | nil =>
            obtain ⟨before, d, after, rfl, hd, hbefore, rfl⟩ := @ih [] hb.symm
            refine ⟨c :: before, d, after, rfl, hd, ?_, rfl⟩
            rw [bytes_cons, hbefore, hc, List.append_nil, List.append_nil]
        | cons x more =>
            obtain ⟨rfl, rfl⟩ := List.cons.inj hb
            have hmem : b ∈ String.utf8EncodeChar c := by simp [hc]
            have hsingle := utf8EncodeChar_eq_singleton_of_mem hmem ascii
            have hlength := congrArg List.length (hc.symm.trans hsingle)
            simp only [List.length_append, List.length_cons, List.length_nil] at hlength
            obtain rfl : left = [] := List.eq_nil_of_length_eq_zero (by omega)
            obtain rfl : more = [] := List.eq_nil_of_length_eq_zero (by omega)
            exact ⟨[], c, s, rfl, hsingle, rfl, rfl⟩

end Text

end ClassLint
