import ClassLint.Text.Basic

/-!
# Sorting and leaving out repetitions

A list is put in order and then the first of each run of like elements is kept.  If two
elements that are in order and not alike are strictly in order, what is left is strictly
increasing.

**Results.**
* `pairwise_arranged`: sorting and leaving out repetitions gives a strictly increasing list.
* `mem_of_mem_arranged`: nothing is added.
* `eq_of_pairwise_of_mem_iff`: an order and the elements determine a list.
-/

namespace ClassLint

section Repetitions

variable {α : Type} (same : α → α → Bool)

/-- What was kept already stands in front of what is kept from here on. -/
theorem eraseRepsBy_loop
    (a : α) (l kept : List α) :
    List.eraseRepsBy.loop same a l kept = kept.reverse ++ List.eraseRepsBy.loop same a l [] := by
  induction l generalizing a kept with
  | nil => simp [List.eraseRepsBy.loop]
  | cons b l ih =>
      unfold List.eraseRepsBy.loop
      split
      · exact ih a kept
      · rw [ih b (a :: kept), ih b [a]]
        simp

theorem eraseRepsBy_singleton
    (a : α) :
    [a].eraseRepsBy same = [a] := by
  rfl

theorem eraseRepsBy_cons_cons
    (a b : α) (l : List α) :
    (a :: b :: l).eraseRepsBy same =
      if same a b then (a :: l).eraseRepsBy same else a :: (b :: l).eraseRepsBy same := by
  simp only [List.eraseRepsBy]
  rw [List.eraseRepsBy.loop]
  cases hab : same a b with
  | true => rfl
  | false =>
      simp only
      rw [eraseRepsBy_loop]
      rfl

/-- The first element is always kept. -/
theorem eraseRepsBy_cons
    (a : α) (l : List α) :
    ∃ kept, (a :: l).eraseRepsBy same = a :: kept ∧ kept.Sublist l := by
  induction l generalizing a with
  | nil => exact ⟨[], eraseRepsBy_singleton same a, List.Sublist.refl []⟩
  | cons b l ih =>
      rw [eraseRepsBy_cons_cons]
      split
      · obtain ⟨kept, hkept, hsub⟩ := ih a
        exact ⟨kept, hkept, hsub.cons b⟩
      · obtain ⟨kept, hkept, hsub⟩ := ih b
        exact ⟨b :: kept, by rw [hkept], hsub.cons_cons b⟩

theorem eraseRepsBy_sublist
    (l : List α) :
    (l.eraseRepsBy same).Sublist l := by
  cases l with
  | nil => exact List.Sublist.refl []
  | cons a l =>
      obtain ⟨kept, hkept, hsub⟩ := eraseRepsBy_cons same a l
      rw [hkept]
      exact hsub.cons_cons a

/-- Of every element that is left out a like one is kept. -/
theorem exists_mem_eraseRepsBy
    {l : List α} {a : α}
    (h : a ∈ l) :
    ∃ b ∈ l.eraseRepsBy same, b = a ∨ same b a = true := by
  match l with
  | [] => cases h
  | [x] => exact ⟨a, h, Or.inl rfl⟩
  | x :: y :: l =>
      rw [eraseRepsBy_cons_cons]
      split
      · next hxy =>
          rcases List.mem_cons.1 h with rfl | h
          · exact exists_mem_eraseRepsBy List.mem_cons_self
          · rcases List.mem_cons.1 h with rfl | h
            · obtain ⟨kept, hkept, -⟩ := eraseRepsBy_cons same x l
              exact ⟨x, by rw [hkept]; exact List.mem_cons_self, Or.inr hxy⟩
            · exact exists_mem_eraseRepsBy (List.mem_cons_of_mem x h)
      · rcases List.mem_cons.1 h with rfl | h
        · exact ⟨a, List.mem_cons_self, Or.inl rfl⟩
        · obtain ⟨b, hb, hlike⟩ := exists_mem_eraseRepsBy h
          exact ⟨b, List.mem_cons_of_mem x hb, hlike⟩
  termination_by l.length

variable {same} {before : α → α → Bool} {strictly : α → α → Prop}

/-- Without its repetitions a sorted list is strictly increasing. -/
theorem pairwise_eraseRepsBy
    (strict_trans : ∀ a b c, strictly a b → strictly b c → strictly a c)
    (strict_of_not_same : ∀ a b, before a b = true → same a b = false → strictly a b)
    {l : List α}
    (sorted : l.Pairwise fun a b => before a b = true) :
    (l.eraseRepsBy same).Pairwise strictly := by
  match l with
  | [] => exact List.Pairwise.nil
  | [a] => exact List.pairwise_singleton _ _
  | a :: b :: l =>
      obtain ⟨ha, hrest⟩ := List.pairwise_cons.1 sorted
      rw [eraseRepsBy_cons_cons]
      split
      · refine pairwise_eraseRepsBy strict_trans strict_of_not_same ?_
        exact List.pairwise_cons.2
          ⟨fun x hx => ha x (List.mem_cons_of_mem b hx), (List.pairwise_cons.1 hrest).2⟩
      · next hab =>
          have hstep : strictly a b :=
            strict_of_not_same a b (ha b List.mem_cons_self) (Bool.eq_false_iff.2 hab)
          have ih := pairwise_eraseRepsBy strict_trans strict_of_not_same hrest
          refine List.pairwise_cons.2 ⟨?_, ih⟩
          obtain ⟨kept, hkept, -⟩ := eraseRepsBy_cons same b l
          rw [hkept] at ih ⊢
          intro x hx
          rcases List.mem_cons.1 hx with rfl | hx
          · exact hstep
          · exact strict_trans a b x hstep ((List.pairwise_cons.1 ih).1 x hx)
  termination_by l.length

theorem pairwise_arranged
    (before_trans : ∀ a b c, before a b = true → before b c = true → before a c = true)
    (before_total : ∀ a b, (before a b || before b a) = true)
    (strict_trans : ∀ a b c, strictly a b → strictly b c → strictly a c)
    (strict_of_not_same : ∀ a b, before a b = true → same a b = false → strictly a b)
    (l : List α) :
    ((l.mergeSort before).eraseRepsBy same).Pairwise strictly := by
  have sorted := List.pairwise_mergeSort before_trans before_total l
  exact pairwise_eraseRepsBy strict_trans strict_of_not_same sorted

theorem mem_of_mem_arranged
    {l : List α} {a : α}
    (h : a ∈ (l.mergeSort before).eraseRepsBy same) :
    a ∈ l := by
  exact List.mem_mergeSort.1 ((eraseRepsBy_sublist same _).subset h)

/-- Sorting and leaving out equal elements keeps every element. -/
theorem mem_arranged_iff
    [BEq α] [LawfulBEq α]
    {l : List α} {a : α} :
    a ∈ (l.mergeSort before).eraseReps ↔ a ∈ l := by
  constructor
  · exact mem_of_mem_arranged
  · intro h
    obtain ⟨b, hb, hlike⟩ := exists_mem_eraseRepsBy (· == ·) (List.mem_mergeSort.2 h)
    rcases hlike with rfl | hlike
    · exact hb
    · rw [← eq_of_beq hlike]
      exact hb

end Repetitions

/-- Lists in strict order that have the same elements are the same. -/
theorem eq_of_pairwise_of_mem_iff
    {α : Type} {strictly : α → α → Prop}
    (asymm : ∀ a b, strictly a b → ¬ strictly b a)
    {xs ys : List α}
    (hxs : xs.Pairwise strictly)
    (hys : ys.Pairwise strictly)
    (hmem : ∀ a, a ∈ xs ↔ a ∈ ys) :
    xs = ys := by
  have hne {a b : α} (h : strictly a b) : a ≠ b := fun e => asymm a b h (e ▸ h)
  have hperm := (List.perm_ext_iff_of_nodup (hxs.imp hne) (hys.imp hne)).2 hmem
  exact hperm.eq_of_pairwise (fun a b _ _ hab hba => absurd hba (asymm a b hab)) hxs hys

end ClassLint
