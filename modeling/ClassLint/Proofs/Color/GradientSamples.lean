import ClassLint.Color.Gradient

/-!
# The samples of a gradient

Every segment between neighbouring stops contributes the same number of samples, the first of which
is at its first stop, and the last stop follows them once.  So a sample is found by the number of
its segment and its number within the segment, and a gradient that goes on at its last stop shares
that stop only.

**Results.**
* `length_gradient`, `getElem?_gradient`, `getLast?_gradient`: how many samples there are, and
  which.
* `gradient_append`: gradients are joined at a stop.
-/

namespace ClassLint

section Gradients

variable (samples : Nat)

theorem length_segmentSamples
    (first second : Rgba) :
    (segmentSamples samples first second).length = samples := by
  rw [segmentSamples, List.length_map, List.length_range]

theorem getElem?_segmentSamples
    {k : Nat}
    (hk : k < samples)
    (first second : Rgba) :
    (segmentSamples samples first second)[k]? =
      some (mixColors first second (k.toFloat / samples.toFloat)) := by
  rw [segmentSamples, List.getElem?_map, List.getElem?_range hk, Option.map_some]

/-- There is a segment for every stop but the last, which stands for itself. -/
theorem length_gradient
    (stop : Rgba) (stops : List Rgba) :
    (gradient samples (stop :: stops)).length = stops.length * max samples 1 + 1 := by
  induction stops generalizing stop with
  | nil => rw [gradient, List.length_nil, Nat.zero_mul, List.length_singleton]
  | cons next stops ih =>
      rw [gradient, List.length_append, length_segmentSamples, ih, List.length_cons, Nat.succ_mul]
      omega

theorem gradient_ne_nil
    (stop : Rgba) (stops : List Rgba) :
    gradient samples (stop :: stops) ≠ [] := by
  apply List.ne_nil_of_length_pos
  rw [length_gradient]
  exact Nat.succ_pos _

theorem getLast?_gradient
    (stops : List Rgba) :
    (gradient samples stops).getLast? = stops.getLast? := by
  fun_induction gradient samples stops with
  | case1 => rfl
  | case2 => rfl
  | case3 first second stops ih =>
      rw [List.getLast?_append, ih, List.getLast?_cons_cons, List.getLast?_cons, Option.some_or]

/-- The samples of a segment come after those of the segments before it. -/
theorem getElem?_gradient
    {stops : List Rgba} {i k : Nat} {first second : Rgba}
    (hfirst : stops[i]? = some first)
    (hsecond : stops[i + 1]? = some second)
    (hk : k < max samples 1) :
    (gradient samples stops)[i * max samples 1 + k]? =
      some (mixColors first second (k.toFloat / (max samples 1).toFloat)) := by
  fun_induction gradient samples stops generalizing i with
  | case1 => cases hfirst
  | case2 => cases hsecond
  | case3 a b stops ih =>
      -- The first segment stands in front; the samples of a later one are later by its length.
      cases i with
      | zero =>
          cases hfirst
          cases hsecond
          rw [Nat.zero_mul, Nat.zero_add, List.getElem?_append_left]
          · exact getElem?_segmentSamples _ hk first second
          · rwa [length_segmentSamples]
      | succ i =>
          have hplace : (i + 1) * max samples 1 + k - max samples 1 = i * max samples 1 + k := by
            rw [Nat.succ_mul]
            omega
          rw [List.getElem?_append_right, length_segmentSamples, hplace]
          · exact ih hfirst hsecond
          · rw [length_segmentSamples, Nat.succ_mul]
            omega

/-- Two gradients are joined at the stop that ends the first and begins the second. -/
theorem gradient_append
    (before : List Rgba) (stop : Rgba) (after : List Rgba) :
    gradient samples (before ++ stop :: after) =
      (gradient samples (before ++ [stop])).dropLast ++ gradient samples (stop :: after) := by
  induction before with
  | nil => rfl
  | cons first before ih =>
      cases before with
      | nil =>
          rw [List.cons_append, List.nil_append, List.cons_append, List.nil_append, gradient,
            gradient, gradient, List.dropLast_concat]
      | cons second before =>
          have hne : gradient samples (second :: (before ++ [stop])) ≠ [] :=
            gradient_ne_nil samples second _
          simp only [List.cons_append] at ih ⊢
          rw [gradient, gradient, ih, List.dropLast_append_of_ne_nil hne, List.append_assoc]

end Gradients

/--
**Gradients.**  Fewer than two stops are returned as they are.  From two stops on, every stop but
the last begins a segment of equally many samples, at least one: the sample of number `k` in a
segment is the mixture of its two stops at `k` parts of their number.  The last stop ends the
gradient unchanged.  A gradient through a stop is the gradient up to that stop without its end,
and then the gradient from that stop on.
-/
theorem gradient_shape :
    (∀ (samples : Nat) (stops : List Rgba), stops.length < 2 →
      gradient samples stops = stops) ∧
    (∀ (samples : Nat) (stops : List Rgba), 2 ≤ stops.length →
      (gradient samples stops).length = (stops.length - 1) * max samples 1 + 1 ∧
      (∀ i k first second, stops[i]? = some first → stops[i + 1]? = some second →
        k < max samples 1 →
        (gradient samples stops)[i * max samples 1 + k]? =
          some (mixColors first second (k.toFloat / (max samples 1).toFloat))) ∧
      (gradient samples stops)[(stops.length - 1) * max samples 1]? = stops.getLast?) ∧
    (∀ (samples : Nat) (before : List Rgba) (stop : Rgba) (after : List Rgba),
      gradient samples (before ++ stop :: after) =
        (gradient samples (before ++ [stop])).dropLast ++ gradient samples (stop :: after)) := by
  refine ⟨fun samples stops h => ?_, fun samples stops h => ?_, gradient_append⟩
  · fun_cases gradient samples stops with
    | case1 => rfl
    | case2 => rfl
    | case3 first second stops =>
        simp only [List.length_cons] at h
        omega
  · obtain ⟨stop, rest, rfl⟩ := List.exists_cons_of_length_pos (by omega : 0 < stops.length)
    have hlength := length_gradient samples stop rest
    refine ⟨hlength, fun i k first second => getElem?_gradient samples, ?_⟩
    rw [← getLast?_gradient samples, List.getLast?_eq_getElem?, hlength]
    rfl

/-- Three stops without samples asked for: every segment still has one. -/
theorem gradient_shape_noSamples :
    (gradient 0 [.black, .white, .transparent]).length = 3 ∧
    (gradient 0 [.black, .white, .transparent])[1]? =
      some (mixColors .white .transparent (Nat.toFloat 0 / Nat.toFloat 1)) ∧
    (gradient 0 [.black, .white, .transparent])[2]? = some .transparent ∧
    gradient 0 [.black] = [.black] := by
  obtain ⟨hlength, hsamples, hlast⟩ :=
    gradient_shape.2.1 0 [.black, .white, .transparent] (by decide)
  exact ⟨hlength, hsamples 1 0 .white .transparent rfl rfl (by decide), hlast,
    gradient_shape.1 0 [.black] (by decide)⟩

end ClassLint
