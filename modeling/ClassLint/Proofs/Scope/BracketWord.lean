import ClassLint.Utility.Catalog
import Mathlib.Logic.ExistsUnique

/-!
# Words of brackets

Whether a text has balanced square brackets is decided by a counter that gives up at a bracket
that closes nothing.  What the counter accepts is described without it: what is left of the text
when all other characters are deleted is a word in which brackets are opened and closed in pairs.
With some brackets open the counter accepts such words one after the other, with the brackets
that close the open ones between them, and one character more on either side of this description is
one step of the counter.

The pairs of such a word are unique, because no word goes on, after a shorter word, with a closing
bracket.

**Results.**
* `balancedFrom_eq_true_iff`: what the counter accepts, with any number of brackets open.
* `IsBracketWord.not_append_closing`: a word does not end before the bracket that closes it.
* `balancedBrackets_word`: balanced texts, and what follows for a base that is accepted for its
  brackets.
-/

namespace ClassLint

namespace Text

/-- The square brackets of a text in order. -/
def brackets (s : Text) : Text :=
  s.filter fun c => c == '[' || c == ']'

/-- A word of brackets that are opened and closed in pairs. -/
inductive IsBracketWord : Text → Prop
  | empty : IsBracketWord []
  | pair
      {inner rest : Text}
      (hinner : IsBracketWord inner)
      (hrest : IsBracketWord rest) :
      IsBracketWord ('[' :: (inner ++ ']' :: rest))

/-- Words one after the other, each but the last followed by the bracket that closes one of the
open ones. -/
inductive ClosesOpen : Nat → Text → Prop
  | word
      {w : Text}
      (h : IsBracketWord w) :
      ClosesOpen 0 w
  | closing
      {n : Nat} {inner rest : Text}
      (hinner : IsBracketWord inner)
      (hrest : ClosesOpen n rest) :
      ClosesOpen (n + 1) (inner ++ ']' :: rest)

/-- A pair of brackets in a text, given by what stands before, between and after them: those between
form a word of their own. -/
structure IsPairIn (s before between after : Text) : Prop where
  text_eq : s = before ++ '[' :: (between ++ ']' :: after)
  isBracketWord : IsBracketWord between.brackets

/-! ## The brackets of a text -/

@[simp] theorem brackets_nil :
    brackets [] = [] :=
  rfl

@[simp] theorem brackets_cons_opening
    (s : Text) :
    brackets ('[' :: s) = '[' :: s.brackets :=
  rfl

@[simp] theorem brackets_cons_closing
    (s : Text) :
    brackets (']' :: s) = ']' :: s.brackets :=
  rfl

theorem brackets_cons_of_ne
    {c : Char}
    (hopening : c ≠ '[')
    (hclosing : c ≠ ']')
    (s : Text) :
    brackets (c :: s) = s.brackets := by
  simp [brackets, hopening, hclosing]

@[simp] theorem brackets_append
    (s t : Text) :
    (s ++ t).brackets = s.brackets ++ t.brackets :=
  List.filter_append s t

theorem mem_brackets_closing
    {s : Text} :
    ']' ∈ s.brackets ↔ ']' ∈ s := by
  simp [brackets]

/-- Where a bracket stands among the brackets of a text, it stands in the text. -/
theorem exists_of_brackets_eq
    {s left right : Text} {c : Char}
    (h : s.brackets = left ++ c :: right) :
    ∃ before after : Text, s = before ++ c :: after ∧ before.brackets = left ∧
      after.brackets = right := by
  obtain ⟨before, rest, rfl, hbefore, hrest⟩ := List.filter_eq_append_iff.1 h
  obtain ⟨skipped, after, rfl, hskipped, -, hafter⟩ := List.filter_eq_cons_iff.1 hrest
  refine ⟨before ++ skipped, after, (List.append_assoc _ _ _).symm, ?_, hafter⟩
  rw [brackets_append, brackets, hbefore]
  have hnone : brackets skipped = [] := List.filter_eq_nil_iff.2 hskipped
  rw [hnone, List.append_nil]

/-! ## Steps of the counter -/

theorem closesOpen_zero_iff
    {w : Text} :
    ClosesOpen 0 w ↔ IsBracketWord w := by
  constructor
  · rintro ⟨h⟩
    exact h
  · exact .word

theorem closesOpen_nil_iff
    {n : Nat} :
    ClosesOpen n [] ↔ n = 0 := by
  constructor
  · intro h
    generalize hw : ([] : Text) = w at h
    cases h with
    | word => rfl
    | closing => simp at hw
  · rintro rfl
    exact .word .empty

theorem closesOpen_cons_opening_iff
    {n : Nat} {w : Text} :
    ClosesOpen n ('[' :: w) ↔ ClosesOpen (n + 1) w := by
  constructor
  · intro h
    generalize hv : '[' :: w = v at h
    cases h with
    | word h =>
        cases h with
        | empty => cases hv
        | pair hinner hrest =>
            cases hv
            exact .closing hinner (.word hrest)
    | closing hinner hrest =>
        -- The bracket begins a pair of the first word; without it, its closing bracket is one more
        -- of those between the words.
        cases hinner with
        | empty => cases hv
        | pair hfirst hsecond =>
            simp only [List.cons_append, List.cons.injEq, true_and, List.append_assoc] at hv
            rw [hv]
            exact .closing hfirst (.closing hsecond hrest)
  · rintro (_ | ⟨hinner, hrest⟩)
    cases hrest with
    | word hrest => exact .word (.pair hinner hrest)
    | closing hnext hlast =>
        have hpair := ClosesOpen.closing (.pair hinner hnext) hlast
        simpa using hpair

theorem closesOpen_cons_closing_iff
    {n : Nat} {w : Text} :
    ClosesOpen n (']' :: w) ↔ ∃ m, n = m + 1 ∧ ClosesOpen m w := by
  constructor
  · intro h
    generalize hv : ']' :: w = v at h
    cases h with
    | word h => cases h <;> cases hv
    | closing hinner hrest =>
        cases hinner with
        | empty =>
            cases hv
            exact ⟨_, rfl, hrest⟩
        | pair => cases hv
  · rintro ⟨m, rfl, h⟩
    exact .closing .empty h

/-- What the counter accepts with some brackets open. -/
theorem balancedFrom_eq_true_iff
    {n : Nat} {closedOne : Bool} {s : Text} :
    balancedFrom n closedOne s = true ↔
      ClosesOpen n s.brackets ∧ (closedOne = true ∨ ']' ∈ s) := by
  fun_induction balancedFrom n closedOne s with
  | case1 n closedOne => simp [closesOpen_nil_iff]
  | case2 n closedOne s ih =>
      rw [ih, brackets_cons_opening, closesOpen_cons_opening_iff]
      simp
  | case3 closedOne s =>
      simp [closesOpen_cons_closing_iff]
  | case4 closedOne s n ih =>
      rw [ih, brackets_cons_closing, closesOpen_cons_closing_iff]
      simp
  | case5 n closedOne c s hopening hclosing ih =>
      have hc : ']' ≠ c := fun h => hclosing h.symm
      rw [ih, brackets_cons_of_ne hopening hclosing]
      simp [hc]

theorem hasBalancedBrackets_iff
    {s : Text} :
    s.hasBalancedBrackets = true ↔ s.brackets ≠ [] ∧ IsBracketWord s.brackets := by
  rw [hasBalancedBrackets, balancedFrom_eq_true_iff, closesOpen_zero_iff, ← mem_brackets_closing]
  constructor
  · rintro ⟨hword, hclosed⟩
    have hmem := hclosed.resolve_left Bool.false_ne_true
    exact ⟨List.ne_nil_of_mem hmem, hword⟩
  · rintro ⟨hne, hword⟩
    refine ⟨hword, Or.inr ?_⟩
    generalize s.brackets = w at hne hword
    cases hword with
    | empty => exact absurd rfl hne
    | pair => simp

/-! ## Pairs -/

namespace IsBracketWord

theorem closesOpen_append_iff
    {w : Text}
    (h : IsBracketWord w)
    (n : Nat) (v : Text) :
    ClosesOpen n (w ++ v) ↔ ClosesOpen n v := by
  induction h generalizing n v with
  | empty => exact Iff.rfl
  | pair hinner hrest ihInner ihRest =>
      rw [List.cons_append, closesOpen_cons_opening_iff, List.append_assoc, ihInner,
        List.cons_append, closesOpen_cons_closing_iff]
      simp only [Nat.add_right_cancel_iff, exists_eq_left', ihRest]

/-- What closes the bracket before a word does not stand within the word. -/
theorem not_append_closing
    {w : Text}
    (h : IsBracketWord w)
    (v : Text) :
    ¬ IsBracketWord (w ++ ']' :: v) := by
  rw [← closesOpen_zero_iff, h.closesOpen_append_iff, closesOpen_cons_closing_iff]
  rintro ⟨m, hm, -⟩
  cases hm

theorem exists_closing
    {w : Text}
    (h : IsBracketWord w)
    {left right : Text}
    (hw : w = left ++ '[' :: right) :
    ∃ inner rest, right = inner ++ ']' :: rest ∧ IsBracketWord inner := by
  induction h generalizing left right with
  | empty => simp at hw
  | @pair inner rest hinner hrest ihInner ihRest =>
      cases left with
      | nil =>
          cases hw
          exact ⟨inner, rest, rfl, hinner⟩
      | cons c left =>
          -- A later bracket stands behind the first pair or within it.
          obtain ⟨-, htail⟩ := List.cons.inj hw
          rcases List.append_eq_append_iff.1 htail with ⟨more, -, hmore⟩ | ⟨more, rfl, hmore⟩
          · cases more with
            | nil => cases hmore
            | cons d more =>
                obtain ⟨-, hmore⟩ := List.cons.inj hmore
                exact ihRest hmore
          · cases more with
            | nil => cases hmore
            | cons d more =>
                obtain ⟨rfl, rfl⟩ := List.cons.inj hmore
                obtain ⟨first, last, rfl, hfirst⟩ := ihInner rfl
                exact ⟨first, last ++ ']' :: rest, List.append_assoc _ _ _, hfirst⟩

theorem exists_opening
    {w : Text}
    (h : IsBracketWord w)
    {left right : Text}
    (hw : w = left ++ ']' :: right) :
    ∃ before inner, left = before ++ '[' :: inner ∧ IsBracketWord inner := by
  induction h generalizing left right with
  | empty => simp at hw
  | @pair inner rest hinner hrest ihInner ihRest =>
      cases left with
      | nil => cases hw
      | cons c left =>
          -- The bracket stands behind the first pair, ends it, or stands within it.
          obtain ⟨rfl, htail⟩ := List.cons.inj hw
          rcases List.append_eq_append_iff.1 htail with ⟨more, rfl, hmore⟩ | ⟨more, rfl, hmore⟩
          · cases more with
            | nil => exact ⟨[], inner, by simp, hinner⟩
            | cons d more =>
                obtain ⟨-, hmore⟩ := List.cons.inj hmore
                obtain ⟨before, last, rfl, hlast⟩ := ihRest hmore
                exact ⟨'[' :: (inner ++ d :: before), last, by simp, hlast⟩
          · cases more with
            | nil => exact ⟨[], left, rfl, by simpa using hinner⟩
            | cons d more =>
                obtain ⟨rfl, -⟩ := List.cons.inj hmore
                obtain ⟨before, last, rfl, hlast⟩ := ihInner rfl
                exact ⟨'[' :: before, last, rfl, hlast⟩

/-- What opens the bracket after a word does not stand within the word. -/
theorem not_append_opening
    {w : Text}
    (h : IsBracketWord w)
    (v : Text) :
    ¬ IsBracketWord (v ++ '[' :: w) := by
  intro hlonger
  obtain ⟨inner, rest, rfl, hinner⟩ := hlonger.exists_closing rfl
  exact hinner.not_append_closing rest h

end IsBracketWord

/-- In front of a closing bracket a word does not go on beyond another one. -/
theorem eq_nil_of_closing
    {between more after after' : Text}
    (hword : IsBracketWord between.brackets)
    (hlonger : IsBracketWord (between ++ more).brackets)
    (h : ']' :: after = more ++ ']' :: after') :
    more = [] := by
  cases more with
  | nil => rfl
  | cons c more =>
      obtain ⟨rfl, -⟩ := List.cons.inj h
      rw [brackets_append, brackets_cons_closing] at hlonger
      exact absurd hlonger (hword.not_append_closing _)

/-- Behind an opening bracket a word does not begin before another one. -/
theorem eq_nil_of_opening
    {between between' more : Text}
    (hword : IsBracketWord between.brackets)
    (hlonger : IsBracketWord between'.brackets)
    (h : '[' :: between' = more ++ '[' :: between) :
    more = [] := by
  cases more with
  | nil => rfl
  | cons c more =>
      have hbetween : between' = more ++ '[' :: between := (List.cons.inj h).2
      rw [hbetween, brackets_append, brackets_cons_opening] at hlonger
      exact absurd hlonger (hword.not_append_opening _)

theorem eq_of_append_closing_eq
    {between between' after after' : Text}
    (hword : IsBracketWord between.brackets)
    (hword' : IsBracketWord between'.brackets)
    (h : between ++ ']' :: after = between' ++ ']' :: after') :
    between = between' ∧ after = after' := by
  rcases List.append_eq_append_iff.1 h with ⟨more, rfl, hmore⟩ | ⟨more, rfl, hmore⟩
  · obtain rfl := eq_nil_of_closing hword hword' hmore
    exact ⟨(List.append_nil _).symm, (List.cons.inj hmore).2⟩
  · obtain rfl := eq_nil_of_closing hword' hword hmore
    exact ⟨List.append_nil _, (List.cons.inj hmore).2.symm⟩

theorem eq_of_append_opening_eq
    {between between' before before' : Text}
    (hword : IsBracketWord between.brackets)
    (hword' : IsBracketWord between'.brackets)
    (h : before ++ '[' :: between = before' ++ '[' :: between') :
    before = before' ∧ between = between' := by
  rcases List.append_eq_append_iff.1 h with ⟨more, rfl, hmore⟩ | ⟨more, rfl, hmore⟩
  · obtain rfl := eq_nil_of_opening hword' hword hmore
    exact ⟨(List.append_nil _).symm, (List.cons.inj hmore).2⟩
  · obtain rfl := eq_nil_of_opening hword hword' hmore
    exact ⟨List.append_nil _, (List.cons.inj hmore).2.symm⟩

theorem existsUnique_closing
    {s before rest : Text}
    (h : IsBracketWord s.brackets)
    (hs : s = before ++ '[' :: rest) :
    ∃! ends : Text × Text, IsPairIn s before ends.1 ends.2 := by
  have hbrackets : s.brackets = before.brackets ++ '[' :: rest.brackets := by
    rw [hs, brackets_append, brackets_cons_opening]
  obtain ⟨inner, last, hrest, hinner⟩ := h.exists_closing hbrackets
  obtain ⟨between, after, rfl, rfl, -⟩ := exists_of_brackets_eq hrest
  refine ⟨(between, after), ⟨hs, hinner⟩, ?_⟩
  rintro ⟨between', after'⟩ ⟨htext, hword⟩
  have htail := List.append_cancel_left (htext.symm.trans hs)
  obtain ⟨rfl, rfl⟩ := eq_of_append_closing_eq hword hinner (List.cons.inj htail).2
  rfl

theorem existsUnique_opening
    {s front after : Text}
    (h : IsBracketWord s.brackets)
    (hs : s = front ++ ']' :: after) :
    ∃! ends : Text × Text, IsPairIn s ends.1 ends.2 after := by
  have hbrackets : s.brackets = front.brackets ++ ']' :: after.brackets := by
    rw [hs, brackets_append, brackets_cons_closing]
  obtain ⟨first, inner, hfront, hinner⟩ := h.exists_opening hbrackets
  obtain ⟨before, between, rfl, -, rfl⟩ := exists_of_brackets_eq hfront
  refine ⟨(before, between), ⟨by rw [hs]; simp, hinner⟩, ?_⟩
  rintro ⟨before', between'⟩ ⟨htext, hword⟩
  have hsplit : (before' ++ '[' :: between') ++ ']' :: after =
      (before ++ '[' :: between) ++ ']' :: after := by
    rw [← hs, htext, List.append_assoc, List.cons_append]
  obtain ⟨rfl, rfl⟩ := eq_of_append_opening_eq hword hinner (List.append_cancel_right hsplit)
  rfl

/--
**Balanced square brackets.**  A text is balanced exactly if deleting all other characters leaves a
word, not the empty one, in which brackets are opened and closed in pairs.  So a base that the
catalog accepts for its brackets has for each opening bracket exactly one bracket later on that
closes it, and for each closing bracket exactly one before it that it closes, whatever other
characters stand around them.
-/
theorem balancedBrackets_word :
    (∀ s : Text,
      s.hasBalancedBrackets = true ↔ s.brackets ≠ [] ∧ IsBracketWord s.brackets) ∧
    ∀ base : Text, base.hasBalancedBrackets = true →
      Catalog.isUtility base = true ∧
      (∀ before rest, base = before ++ '[' :: rest →
        ∃! ends : Text × Text, IsPairIn base before ends.1 ends.2) ∧
      (∀ front after, base = front ++ ']' :: after →
        ∃! ends : Text × Text, IsPairIn base ends.1 ends.2 after) := by
  refine ⟨fun s => hasBalancedBrackets_iff, fun base h => ?_⟩
  have hword := (hasBalancedBrackets_iff.1 h).2
  refine ⟨?_, fun before rest => existsUnique_closing hword,
    fun front after => existsUnique_opening hword⟩
  rw [Catalog.isUtility, h, Bool.true_or]

/-- Brackets within brackets, and parentheses that do not match. -/
theorem balancedBrackets_word_openParenthesis :
    Text.hasBalancedBrackets "w-[(a[b]c]".toList = true ∧
    Catalog.isUtility "w-[(a[b]c]".toList = true ∧
    (∃! ends : Text × Text, IsPairIn "w-[(a[b]c]".toList "w-".toList ends.1 ends.2) ∧
    ∃! ends : Text × Text, IsPairIn "w-[(a[b]c]".toList ends.1 ends.2 "c]".toList := by
  have hbalanced : Text.hasBalancedBrackets "w-[(a[b]c]".toList = true := by decide
  obtain ⟨hutility, hopening, hclosing⟩ := balancedBrackets_word.2 _ hbalanced
  exact ⟨hbalanced, hutility, hopening _ "(a[b]c]".toList rfl, hclosing "w-[(a[b".toList _ rfl⟩

end Text

end ClassLint
