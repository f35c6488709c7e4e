import ClassLint.Text.Basic

/-!
# Bracket and parenthesis depth

Inside a utility class a separator counts only outside of square brackets and
parentheses.  The two kinds are counted apart, and a closing character without an
opening one leaves its counter at zero.

The module also decides whether the square brackets of a text are balanced.
-/

namespace ClassLint

/-- How many square brackets and how many parentheses are open. -/
structure Depth where
  bracket : Nat
  paren : Nat
  deriving DecidableEq, Repr

namespace Depth

/-- Nothing is open. -/
def outermost : Depth := ⟨0, 0⟩

/-- The depth after one more character. -/
def step (d : Depth) : Char → Depth
  | '[' => { d with bracket := d.bracket + 1 }
  | ']' => { d with bracket := d.bracket - 1 }
  | '(' => { d with paren := d.paren + 1 }
  | ')' => { d with paren := d.paren - 1 }
  | _ => d

/-- The depth after a text. -/
def after (d : Depth) (s : Text) : Depth :=
  s.foldl step d

@[simp]
theorem after_nil
    (d : Depth) :
    d.after [] = d :=
  rfl

@[simp]
theorem after_cons
    (d : Depth) (c : Char) (s : Text) :
    d.after (c :: s) = (d.step c).after s :=
  rfl

theorem after_append
    (d : Depth) (s t : Text) :
    d.after (s ++ t) = (d.after s).after t :=
  List.foldl_append

/-- Whether the character is met at the outermost depth when the text is read from depth `d`. -/
def meets (mark : Char) (d : Depth) : Text → Bool
  | [] => false
  | c :: s => (c == mark && d == outermost) || meets mark (d.step c) s

theorem meets_cons_eq_false_iff
    {mark c : Char} {d : Depth} {s : Text} :
    meets mark d (c :: s) = false ↔
      ¬ (c = mark ∧ d = outermost) ∧ meets mark (d.step c) s = false := by
  simp [meets]

end Depth

namespace Text

/-- Balance of square brackets with `opened` of them open, knowing whether one was closed. -/
def balancedFrom (opened : Nat) (closedOne : Bool) : Text → Bool
  | [] => opened == 0 && closedOne
  | '[' :: s => balancedFrom (opened + 1) closedOne s
  | ']' :: s =>
      match opened with
      | 0 => false
      | n + 1 => balancedFrom n true s
  | _ :: s => balancedFrom opened closedOne s

/-- Whether every `[` has its `]` and there is at least one pair; other characters are ignored. -/
def hasBalancedBrackets (s : Text) : Bool :=
  balancedFrom 0 false s

end Text

end ClassLint
