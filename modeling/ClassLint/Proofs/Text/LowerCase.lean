import ClassLint.Proofs.Text.Trimming
import Mathlib

/-!
# Letters in lower case

Lowering the case changes the capitals of ASCII and nothing else.  So a character that is no letter
stays what it is, blanks stay blank, and it does not matter whether a text is lowered or trimmed
first.
-/

namespace ClassLint

/-- A letter of ASCII is not blank. -/
theorem isBlank_eq_false_of_isAlpha
    {c : Char}
    (h : c.isAlpha = true) :
    isBlank c = false := by
  have hbounds : 65 ≤ c.toNat ∧ c.toNat ≤ 122 := by
    simp only [Char.isAlpha, Char.isUpper, Char.isLower, Bool.or_eq_true, Bool.and_eq_true,
      decide_eq_true_eq, UInt32.le_iff_toNat_le, ge_iff_le] at h
    rcases h with ⟨hlower, hupper⟩ | ⟨hlower, hupper⟩
    · exact ⟨hlower, Nat.le_trans hupper (by decide)⟩
    · exact ⟨Nat.le_trans (by decide) hlower, hupper⟩
  simp [isBlank]
  omega

theorem isBlank_toLower
    (c : Char) :
    isBlank c.toLower = isBlank c := by
  by_cases halpha : c.isAlpha = true
  · have hlower : c.toLower.isAlpha = true := by rwa [Char.isAlpha_toLower_eq_isAlpha]
    rw [isBlank_eq_false_of_isAlpha halpha, isBlank_eq_false_of_isAlpha hlower]
  · have hupper : ¬ c.isUpper = true := fun h => halpha (by rw [Char.isAlpha, h, Bool.true_or])
    rw [Char.toLower_eq_of_not_isUpper hupper]

namespace Text

/-- A character whose lower case is no letter is its own lower case. -/
theorem eq_of_toLower_eq
    {c d : Char}
    (hd : d.isAlpha = false)
    (h : c.toLower = d) :
    c = d := by
  subst h
  rw [Char.isAlpha_toLower_eq_isAlpha, Char.isAlpha, Bool.or_eq_false_iff] at hd
  have hupper : ¬ c.isUpper = true := by
    rw [hd.1]
    exact Bool.false_ne_true
  exact (Char.toLower_eq_of_not_isUpper hupper).symm

theorem not_mem_lower
    {c : Char} {s : Text}
    (hc : c.isAlpha = false)
    (hs : c ∉ s) :
    c ∉ s.lower := by
  intro hmem
  obtain ⟨b, hb, hlower⟩ := List.mem_map.1 hmem
  rw [eq_of_toLower_eq hc hlower] at hb
  exact hs hb

theorem lower_trimLead
    (s : Text) :
    s.trimLead.lower = s.lower.trimLead := by
  have hblank : isBlank ∘ Char.toLower = isBlank := funext isBlank_toLower
  rw [trimLead, trimLead, lower, lower, List.dropWhile_map, hblank]

theorem lower_trimTail
    (s : Text) :
    s.trimTail.lower = s.lower.trimTail := by
  have hlead := lower_trimLead s.reverse
  unfold trimLead lower at hlead
  unfold trimTail lower
  rw [List.map_reverse, hlead, List.map_reverse]

theorem lower_trim
    (s : Text) :
    s.trim.lower = s.lower.trim := by
  rw [trim, trim, lower_trimTail, lower_trimLead]

end Text

end ClassLint
