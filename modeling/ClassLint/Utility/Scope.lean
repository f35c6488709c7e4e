import ClassLint.Utility.Nesting

/-!
# Variant chains and opacity suffixes

A utility class such as `dark:hover:bg-red-500` is a chain of variants followed by
a base utility, separated by the colons at the outermost depth.  The value of a base
utility may end in an opacity suffix after its last outermost slash.

The segments of a class joined with colons are the class again.
-/

namespace ClassLint

namespace Text

/-- The segments between the outermost colons, reading from depth `d`. -/
def segmentsFrom (d : Depth) : Text → List Text
  | [] => [[]]
  | c :: s =>
      if c = ':' ∧ d = Depth.outermost then [] :: segmentsFrom d s
      else (segmentsFrom (d.step c) s).modifyHead (List.cons c)

/-- The segments of a class; the last one is always there, even if empty. -/
def segments (s : Text) : List Text :=
  segmentsFrom Depth.outermost s

theorem segmentsFrom_ne_nil
    (d : Depth) (s : Text) :
    segmentsFrom d s ≠ [] := by
  induction s generalizing d with
  | nil => simp [segmentsFrom]
  | cons c s ih =>
      simp only [segmentsFrom]
      split
      · simp
      · cases h : segmentsFrom (d.step c) s with
        | nil => exact absurd h (ih _)
        | cons p ps => simp

theorem join_segmentsFrom
    (d : Depth) (s : Text) :
    join [':'] (segmentsFrom d s) = s := by
  induction s generalizing d with
  | nil => simp [segmentsFrom, join]
  | cons c s ih =>
      simp only [segmentsFrom]
      split
      · next h =>
          rw [join_cons_of_ne_nil _ _ (segmentsFrom_ne_nil d s), ih]
          simp [h.1]
      · rw [join_modifyHead_cons _ _ (segmentsFrom_ne_nil _ s), ih]

theorem join_segments
    (s : Text) :
    join [':'] s.segments = s :=
  join_segmentsFrom Depth.outermost s

/-- The parts around the last outermost slash, reading from depth `d`. -/
def cutAtSlashFrom? (d : Depth) : Text → Option (Text × Text)
  | [] => none
  | c :: s =>
      match cutAtSlashFrom? (d.step c) s with
      | some (left, right) => some (c :: left, right)
      | none => if c = '/' ∧ d = Depth.outermost then some ([], s) else none

theorem append_of_cutAtSlashFrom?
    {d : Depth} {s left right : Text}
    (h : cutAtSlashFrom? d s = some (left, right)) :
    s = left ++ '/' :: right := by
  induction s generalizing d left with
  | nil => simp [cutAtSlashFrom?] at h
  | cons c s ih =>
      simp only [cutAtSlashFrom?] at h
      split at h
      · next l r hcut =>
          cases h
          simp [ih hcut]
      · split at h
        · next hc =>
            cases h
            simp [hc.1]
        · cases h

theorem cutAtSlashFrom?_of_not_meets
    {d : Depth} {s : Text}
    (h : Depth.meets '/' d s = false) :
    cutAtSlashFrom? d s = none := by
  induction s generalizing d with
  | nil => rfl
  | cons c s ih =>
      obtain ⟨hc, hs⟩ := Depth.meets_cons_eq_false_iff.1 h
      simp only [cutAtSlashFrom?, ih hs, if_neg hc]

/-- A slash at the outermost depth cuts when no other one follows it there. -/
theorem cutAtSlashFrom?_append_slash
    {d : Depth} {value opacity : Text}
    (hvalue : d.after value = Depth.outermost)
    (hopacity : Depth.meets '/' Depth.outermost opacity = false) :
    cutAtSlashFrom? d (value ++ '/' :: opacity) = some (value, opacity) := by
  induction value generalizing d with
  | nil =>
      rw [Depth.after_nil] at hvalue
      subst hvalue
      have hrest : cutAtSlashFrom? (Depth.outermost.step '/') opacity = none :=
        cutAtSlashFrom?_of_not_meets hopacity
      simp only [List.nil_append, cutAtSlashFrom?, hrest, and_self, if_true]
  | cons c value ih =>
      rw [Depth.after_cons] at hvalue
      simp only [List.cons_append, cutAtSlashFrom?, ih hvalue]

/-- A utility value and its opacity suffix: the parts around the last outermost slash. -/
def splitOpacity (s : Text) : Text × Option Text :=
  match cutAtSlashFrom? Depth.outermost s with
  | some (value, opacity) => (value, some opacity)
  | none => (s, none)

theorem splitOpacity_of_not_meets
    {s : Text}
    (h : Depth.meets '/' Depth.outermost s = false) :
    s.splitOpacity = (s, none) := by
  rw [splitOpacity, cutAtSlashFrom?_of_not_meets h]

theorem splitOpacity_append_slash
    {value opacity : Text}
    (hvalue : Depth.outermost.after value = Depth.outermost)
    (hopacity : Depth.meets '/' Depth.outermost opacity = false) :
    (value ++ '/' :: opacity).splitOpacity = (value, some opacity) := by
  rw [splitOpacity, cutAtSlashFrom?_append_slash hvalue hopacity]

theorem splitOpacity_of_not_mem
    {s : Text}
    (h : '/' ∉ s) :
    s.splitOpacity = (s, none) := by
  unfold splitOpacity
  cases hcut : cutAtSlashFrom? Depth.outermost s with
  | none => rfl
  | some parts =>
      obtain ⟨value, opacity⟩ := parts
      exfalso
      apply h
      rw [append_of_cutAtSlashFrom? hcut]
      exact List.mem_append_right value List.mem_cons_self

theorem splitOpacity_fst_isPrefix
    (s : Text) :
    s.splitOpacity.1 <+: s := by
  unfold splitOpacity
  cases h : cutAtSlashFrom? Depth.outermost s with
  | none => exact List.prefix_rfl
  | some parts =>
      obtain ⟨value, opacity⟩ := parts
      exact ⟨'/' :: opacity, (append_of_cutAtSlashFrom? h).symm⟩

end Text

/-- A utility class as its variants, in written order, and its base utility. -/
structure ScopedClass where
  variants : List Text
  base : Text
  deriving DecidableEq, Repr

namespace ScopedClass

/-- The class that a text stands for: its last segment is the base, the others are variants. -/
def ofText (s : Text) : ScopedClass :=
  { variants := s.segments.dropLast
    base := s.segments.getLast (Text.segmentsFrom_ne_nil _ _) }

/-- The variants joined with colons; a class without variants has the empty scope. -/
def scope (c : ScopedClass) : Text :=
  Text.join [':'] c.variants

/-- The written form of the class. -/
def toText (c : ScopedClass) : Text :=
  match c.variants with
  | [] => c.base
  | _ :: _ => c.scope ++ ':' :: c.base

end ScopedClass

end ClassLint
