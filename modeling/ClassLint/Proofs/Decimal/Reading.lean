import ClassLint.Decimal.Reading
import ClassLint.Proofs.Text.LowerCase

/-!
# Letters in numbers

Of all letters only the mark of an exponent occurs in a number, and it may be a capital.  So the
case of letters has no influence on what is read, and a text with another letter or a percent sign
in it is no number.

**Results.**
* `readFloat?_lower`: a number in lower case is the same number.
* `isNumberChar_of_readFloat?`: which characters a number has.
-/

namespace ClassLint

namespace Decimal

/-! ## The case of letters -/

theorem isAlpha_of_isDigit
    {c : Char}
    (h : c.isDigit = true) :
    c.isAlpha = false := by
  have hdigit : 48 ≤ c.toNat ∧ c.toNat ≤ 57 := by
    simpa [Char.isDigit, UInt32.le_iff_toNat_le] using h
  rw [Bool.eq_false_iff]
  intro halpha
  simp only [Char.isAlpha, Char.isUpper, Char.isLower, Bool.or_eq_true, Bool.and_eq_true,
    decide_eq_true_eq, UInt32.le_iff_toNat_le, ge_iff_le] at halpha
  change (65 ≤ c.toNat ∧ c.toNat ≤ 90) ∨ (97 ≤ c.toNat ∧ c.toNat ≤ 122) at halpha
  omega

theorem toLower_of_isDigit
    {c : Char}
    (h : c.isDigit = true) :
    c.toLower = c := by
  have hletter := isAlpha_of_isDigit h
  rw [Char.isAlpha, Bool.or_eq_false_iff] at hletter
  exact Char.toLower_eq_of_not_isUpper (Bool.eq_false_iff.1 hletter.1)

theorem isDigit_toLower
    (c : Char) :
    c.toLower.isDigit = c.isDigit := by
  rw [Bool.eq_iff_iff]
  constructor
  · intro h
    rw [← Text.eq_of_toLower_eq (isAlpha_of_isDigit h) rfl] at h
    exact h
  · intro h
    rw [toLower_of_isDigit h]
    exact h

/-- Two letters have the lower case `e`. -/
theorem toLower_eq_e_iff
    {c : Char} :
    c.toLower = 'e' ↔ c = 'e' ∨ c = 'E' := by
  constructor
  · intro h
    by_cases hupper : c.val ≥ 'A'.val ∧ c.val ≤ 'Z'.val
    · have hval := congrArg Char.val h
      simp only [Char.toLower, dif_pos hupper] at hval
      have hcode : c.val = 'E'.val := by
        rw [eq_sub_of_add_eq hval]
        decide
      exact Or.inr (Char.ext hcode)
    · rw [Char.toLower, dif_neg hupper] at h
      exact Or.inl h
  · rintro (rfl | rfl) <;> decide

/-- The mark of an exponent may be a capital. -/
theorem isExponentMark_toLower
    (c : Char) :
    (c.toLower == 'e' || c.toLower == 'E') = (c == 'e' || c == 'E') := by
  have hcapital : c.toLower ≠ 'E' := by
    intro h
    have hlower := Char.isUpper_toLower_eq_false c
    rw [h] at hlower
    exact absurd hlower (by decide)
  rw [Bool.eq_iff_iff, Bool.or_eq_true, Bool.or_eq_true, beq_iff_eq, beq_iff_eq, beq_iff_eq,
    beq_iff_eq, toLower_eq_e_iff]
  simp only [hcapital, or_false]

theorem lower_of_all_isDigit
    {s : Text}
    (h : s.all Char.isDigit = true) :
    s.lower = s := by
  calc
    s.lower = s.map id := List.map_congr_left fun c hc =>
      toLower_of_isDigit (List.all_eq_true.1 h c hc)
    _ = s := List.map_id s

theorem takeWhile_isDigit_lower
    (s : Text) :
    s.lower.takeWhile Char.isDigit = s.takeWhile Char.isDigit := by
  have hdigit : Char.isDigit ∘ Char.toLower = Char.isDigit := funext isDigit_toLower
  rw [Text.lower, List.takeWhile_map, hdigit]
  exact lower_of_all_isDigit List.all_takeWhile

theorem dropWhile_isDigit_lower
    (s : Text) :
    s.lower.dropWhile Char.isDigit = Text.lower (s.dropWhile Char.isDigit) := by
  have hdigit : Char.isDigit ∘ Char.toLower = Char.isDigit := funext isDigit_toLower
  rw [Text.lower, List.dropWhile_map, hdigit]
  rfl

theorem readNatural?_lower
    (s : Text) :
    readNatural? s.lower = readNatural? s := by
  have hall : s.lower.all Char.isDigit = s.all Char.isDigit := by
    rw [Text.lower, List.all_map]
    congr 1
    exact funext isDigit_toLower
  have hempty : s.lower.isEmpty = s.isEmpty := by
    cases s <;> rfl
  unfold readNatural?
  rw [hall, hempty]
  split
  · next h =>
      rw [lower_of_all_isDigit (Bool.and_eq_true_iff.1 h).2]
  · rfl

/-- What is in front of the lower case of a text, if it is no letter, is in front of the text. -/
theorem toLower_ne
    {c d : Char}
    (hd : d.isAlpha = false)
    (h : c ≠ d) :
    c.toLower ≠ d :=
  fun hlower => h (Text.eq_of_toLower_eq hd hlower)

theorem splitSign_cons_of_ne
    {c : Char}
    (hplus : c ≠ '+')
    (hminus : c ≠ '-')
    (s : Text) :
    splitSign (c :: s) = (false, c :: s) := by
  rw [splitSign.eq_def]
  split
  · next h => exact absurd (List.cons_eq_cons.1 h).1 hplus
  · next h => exact absurd (List.cons_eq_cons.1 h).1 hminus
  · rfl

/-- A sign is no letter. -/
theorem splitSign_lower
    (s : Text) :
    splitSign s.lower = ((splitSign s).1, (splitSign s).2.lower) := by
  cases s with
  | nil => rfl
  | cons c s =>
      by_cases hplus : c = '+'
      · subst hplus
        rfl
      · by_cases hminus : c = '-'
        · subst hminus
          rfl
        · rw [splitSign_cons_of_ne hplus hminus]
          exact splitSign_cons_of_ne (toLower_ne (by decide) hplus) (toLower_ne (by decide) hminus)
            (Text.lower s)

theorem readExponent?_lower
    (s : Text) :
    readExponent? s.lower = readExponent? s := by
  cases s with
  | nil => rfl
  | cons c s =>
      show readExponent? (c.toLower :: Text.lower s) = readExponent? (c :: s)
      rw [readExponent?, readExponent?, isExponentMark_toLower, splitSign_lower]
      simp only [readNatural?_lower]

/-- The digits behind a point at the beginning, and what follows them. -/
def splitFraction : Text → Text × Text
  | '.' :: rest => (rest.takeWhile Char.isDigit, rest.dropWhile Char.isDigit)
  | s => ([], s)

theorem splitFraction_cons_of_ne
    {c : Char}
    (h : c ≠ '.')
    (s : Text) :
    splitFraction (c :: s) = ([], c :: s) := by
  rw [splitFraction.eq_def]
  split
  · next hc => exact absurd (List.cons_eq_cons.1 hc).1 h
  · rfl

theorem readFloat?_eq
    (s : Text) :
    readFloat? s =
      let unsigned := (splitSign s).2
      let whole := unsigned.takeWhile Char.isDigit
      let fraction := (splitFraction (unsigned.dropWhile Char.isDigit)).1
      if whole.isEmpty && fraction.isEmpty then none
      else
        (readExponent? (splitFraction (unsigned.dropWhile Char.isDigit)).2).bind fun exponent =>
          nearestScaled? (splitSign s).1 (digitsValue (digitsValue 0 whole) fraction)
            (exponent - fraction.length) := by
  rcases hsign : splitSign s with ⟨negative, unsigned⟩
  rw [readFloat?, hsign]
  simp only
  generalize List.dropWhile Char.isDigit unsigned = afterWhole
  cases afterWhole with
  | nil => rfl
  | cons c rest =>
      by_cases hpoint : c = '.'
      · subst hpoint
        rfl
      · rw [splitFraction_cons_of_ne hpoint]
        split
        · next h => exact absurd (List.cons_eq_cons.1 h).1 hpoint
        · rfl

theorem splitFraction_lower
    (s : Text) :
    splitFraction s.lower = ((splitFraction s).1, (splitFraction s).2.lower) := by
  cases s with
  | nil => rfl
  | cons c s =>
      by_cases hpoint : c = '.'
      · subst hpoint
        show ((Text.lower s).takeWhile Char.isDigit, (Text.lower s).dropWhile Char.isDigit) = _
        rw [takeWhile_isDigit_lower, dropWhile_isDigit_lower]
        rfl
      · rw [splitFraction_cons_of_ne hpoint]
        exact splitFraction_cons_of_ne (toLower_ne (by decide) hpoint) (Text.lower s)

/-- A number in lower case is the same number. -/
theorem readFloat?_lower
    (s : Text) :
    readFloat? s.lower = readFloat? s := by
  simp only [readFloat?_eq, splitSign_lower, takeWhile_isDigit_lower, dropWhile_isDigit_lower,
    splitFraction_lower, readExponent?_lower]

/-! ## The characters of a number -/

/-- The character can occur in a number. -/
def IsNumberChar (c : Char) : Prop :=
  c.isDigit = true ∨ c ∈ "+-.eE".toList

instance : DecidablePred IsNumberChar := fun c =>
  inferInstanceAs (Decidable (c.isDigit = true ∨ c ∈ "+-.eE".toList))

theorem mem_splitSign
    {c : Char} {s : Text}
    (h : c ∈ s) :
    IsNumberChar c ∨ c ∈ (splitSign s).2 := by
  cases s with
  | nil => cases h
  | cons b s =>
      by_cases hplus : b = '+'
      · subst hplus
        rcases List.mem_cons.1 h with rfl | hmem
        · exact Or.inl (Or.inr (by decide))
        · exact Or.inr hmem
      · by_cases hminus : b = '-'
        · subst hminus
          rcases List.mem_cons.1 h with rfl | hmem
          · exact Or.inl (Or.inr (by decide))
          · exact Or.inr hmem
        · rw [splitSign_cons_of_ne hplus hminus]
          exact Or.inr h

theorem mem_splitFraction
    {c : Char} {s : Text}
    (h : c ∈ s) :
    IsNumberChar c ∨ c ∈ (splitFraction s).2 := by
  cases s with
  | nil => cases h
  | cons b s =>
      by_cases hpoint : b = '.'
      · subst hpoint
        rcases List.mem_cons.1 h with rfl | hmem
        · exact Or.inl (Or.inr (by decide))
        · rw [← List.takeWhile_append_dropWhile (p := Char.isDigit) (l := s)] at hmem
          rcases List.mem_append.1 hmem with hdigit | hrest
          · exact Or.inl (Or.inl (List.all_eq_true.1 List.all_takeWhile c hdigit))
          · exact Or.inr hrest
      · rw [splitFraction_cons_of_ne hpoint]
        exact Or.inr h

theorem isNumberChar_of_readNatural?
    {s : Text} {n : Nat}
    (h : readNatural? s = some n) :
    ∀ c ∈ s, IsNumberChar c := by
  unfold readNatural? at h
  split at h
  · next hdigits =>
      exact fun c hc => Or.inl (List.all_eq_true.1 (Bool.and_eq_true_iff.1 hdigits).2 c hc)
  · cases h

theorem isNumberChar_of_readExponent?
    {s : Text} {n : Int}
    (h : readExponent? s = some n) :
    ∀ c ∈ s, IsNumberChar c := by
  intro c hc
  cases s with
  | nil => cases hc
  | cons b s =>
      rw [readExponent?] at h
      split at h
      · next hmark =>
          rw [Bool.or_eq_true, beq_iff_eq, beq_iff_eq] at hmark
          obtain ⟨value, hvalue⟩ : ∃ value, readNatural? (splitSign s).2 = some value := by
            cases hread : readNatural? (splitSign s).2 with
            | none =>
                simp only [hread] at h
                cases h
            | some value => exact ⟨value, rfl⟩
          rcases List.mem_cons.1 hc with rfl | hmem
          · rcases hmark with rfl | rfl <;> exact Or.inr (by decide)
          · rcases mem_splitSign hmem with hsign | hdigit
            · exact hsign
            · exact isNumberChar_of_readNatural? hvalue c hdigit
      · cases h

/-- Nothing else stands in a number. -/
theorem isNumberChar_of_readFloat?
    {s : Text} {x : Float}
    (h : readFloat? s = some x) :
    ∀ c ∈ s, IsNumberChar c := by
  intro c hc
  rw [readFloat?_eq] at h
  simp only at h
  split at h
  · cases h
  · obtain ⟨exponent, hexponent, -⟩ := Option.bind_eq_some_iff.1 h
    rcases mem_splitSign hc with hsign | hunsigned
    · exact hsign
    · rw [← List.takeWhile_append_dropWhile (p := Char.isDigit) (l := (splitSign s).2)] at hunsigned
      rcases List.mem_append.1 hunsigned with hwhole | hrest
      · exact Or.inl (List.all_eq_true.1 List.all_takeWhile c hwhole)
      · rcases mem_splitFraction hrest with hfraction | hafter
        · exact hfraction
        · exact isNumberChar_of_readExponent? hexponent c hafter

/-- A text with another character in it is no number. -/
theorem readFloat?_eq_none_of_mem
    {s : Text} {c : Char}
    (hmem : c ∈ s)
    (hc : ¬ IsNumberChar c) :
    readFloat? s = none :=
  Option.eq_none_iff_forall_ne_some.2 fun _ h => hc (isNumberChar_of_readFloat? h c hmem)

end Decimal

end ClassLint
