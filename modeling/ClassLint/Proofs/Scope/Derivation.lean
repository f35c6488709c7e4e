import ClassLint.Utility.Scope

/-!
# Well-nested texts

Separators are found by two counters, one for each kind of bracket, that do not go below zero.
On a text whose brackets are derived in pairs this is the same as to keep a stack of the open
brackets: the counters hold how many brackets of each kind are on the stack, and nothing is open
exactly where a character lies inside no pair of the derivation.

**Results.**
* `marked_toText`: the places that the counters find are the places outside of all pairs.
* `seams_segmentsFrom`, `cutAtSlashFrom?_eq`: the cuts of a text are at places that the counters
  find, whatever its brackets are.
* `after_of_opened?`: the counters count what is on the stack.
* `cuts_of_derivation`: cuts, counters and stack on a derived text.
-/

namespace ClassLint

/-! ## Derivations and stacks -/

/-- The two kinds of brackets. -/
inductive BracketKind where
  | square | round
  deriving DecidableEq, Repr

namespace BracketKind

/-- The character that opens a bracket of the kind. -/
def opening : BracketKind → Char
  | square => '['
  | round => '('

/-- The character that closes a bracket of the kind. -/
def closing : BracketKind → Char
  | square => ']'
  | round => ')'

/-- All characters that open or close a bracket. -/
def characters : List Char :=
  ['[', ']', '(', ')']

end BracketKind

/-- A character that opens and closes nothing. -/
def PlainChar : Type :=
  { c : Char // c ∉ BracketKind.characters }

/-- A way to build a text from plain characters and pairs of brackets. -/
inductive Derivation where
  | empty
  | plain (c : PlainChar) (rest : Derivation)
  | pair (kind : BracketKind) (inner rest : Derivation)

namespace Derivation

/-- The text that is built. -/
def toText : Derivation → Text
  | empty => []
  | plain c rest => c.val :: rest.toText
  | pair kind inner rest => kind.opening :: (inner.toText ++ kind.closing :: rest.toText)

/-- The places of a plain character that lie inside no pair of brackets. -/
def outerPlaces (mark : Char) : Derivation → List Nat
  | empty => []
  | plain c rest =>
      if c.val = mark then 0 :: (rest.outerPlaces mark).map (· + 1)
      else (rest.outerPlaces mark).map (· + 1)
  | pair _ inner rest => (rest.outerPlaces mark).map (· + (inner.toText.length + 2))

end Derivation

namespace Text

/-- The open brackets after one more character, innermost first; none if the character closes
another bracket than the innermost one. -/
def openedStep? (stack : List BracketKind) : Char → Option (List BracketKind)
  | '[' => some (.square :: stack)
  | '(' => some (.round :: stack)
  | ']' => if stack.head? = some .square then some stack.tail else none
  | ')' => if stack.head? = some .round then some stack.tail else none
  | _ => some stack

/-- The open brackets after a text, innermost first. -/
def opened? (stack : List BracketKind) : Text → Option (List BracketKind)
  | [] => some stack
  | c :: s => (openedStep? stack c).bind fun next => opened? next s

/-- The places between texts that are joined with one character between neighbours. -/
def seams : List Text → List Nat
  | [] => []
  | [_] => []
  | part :: rest => part.length :: (seams rest).map (· + (part.length + 1))

end Text

namespace Depth

/-- The places at which the character is met at the outermost depth, reading from depth `d`. -/
def marked (mark : Char) (d : Depth) : Text → List Nat
  | [] => []
  | c :: s =>
      if c = mark ∧ d = outermost then 0 :: (marked mark (d.step c) s).map (· + 1)
      else (marked mark (d.step c) s).map (· + 1)

/-- How many brackets of each kind are on a stack. -/
def ofStack (stack : List BracketKind) : Depth :=
  ⟨stack.count .square, stack.count .round⟩

/-! ## Counters and derivations -/

theorem step_plain
    (d : Depth) {c : Char}
    (h : c ∉ BracketKind.characters) :
    d.step c = d := by
  unfold step
  split
  all_goals first | rfl | exact absurd (by decide) h

theorem step_closing_step_opening
    (d : Depth) (kind : BracketKind) :
    (d.step kind.opening).step kind.closing = d := by
  cases kind <;> rfl

theorem step_opening_ne_outermost
    (d : Depth) (kind : BracketKind) :
    d.step kind.opening ≠ outermost := by
  cases kind <;> simp [step, BracketKind.opening, outermost]

/-- A derived text opens nothing that it does not close. -/
theorem after_toText
    (d : Depth) (t : Derivation) :
    d.after t.toText = d := by
  induction t generalizing d with
  | empty => rfl
  | plain c rest ih =>
      rw [Derivation.toText, after_cons, step_plain d c.property, ih]
  | pair kind inner rest ihInner ihRest =>
      rw [Derivation.toText, after_cons, after_append, ihInner, after_cons,
        step_closing_step_opening, ihRest]

theorem marked_append
    (mark : Char) (d : Depth) (s t : Text) :
    marked mark d (s ++ t) =
      marked mark d s ++ (marked mark (d.after s) t).map (· + s.length) := by
  induction s generalizing d with
  | nil => simp [marked]
  | cons c s ih =>
      have hshift :
          ((marked mark ((d.step c).after s) t).map (· + s.length)).map (· + 1) =
            (marked mark ((d.step c).after s) t).map (· + (s.length + 1)) := by
        simp [Function.comp_def, Nat.add_assoc]
      simp only [List.cons_append, marked, ih, List.map_append, hshift, after_cons,
        List.length_cons]
      split <;> rfl

theorem mem_marked_iff
    {mark : Char} {d : Depth} {s : Text} {place : Nat} :
    place ∈ marked mark d s ↔
      s[place]? = some mark ∧ d.after (s.take place) = outermost := by
  induction s generalizing d place with
  | nil => simp [marked]
  | cons c s ih =>
      cases place with
      | zero =>
          rw [marked]
          split
          · next h => simp [h]
          · next h => simp [h]
      | succ place =>
          have hrest : place + 1 ∈ marked mark d (c :: s) ↔ place ∈ marked mark (d.step c) s := by
            rw [marked]
            split <;> simp
          rw [hrest, ih]
          simp

theorem marked_cons_of_not
    {mark c : Char} {d : Depth}
    (h : ¬ (c = mark ∧ d = outermost))
    (s : Text) :
    marked mark d (c :: s) = (marked mark (d.step c) s).map (· + 1) :=
  if_neg h

/-- While a bracket is open, nothing in a derived text is met at the outermost depth. -/
theorem marked_toText_of_ne_outermost
    {d : Depth}
    (h : d ≠ outermost)
    (mark : Char) (t : Derivation) :
    marked mark d t.toText = [] := by
  induction t generalizing d with
  | empty => rfl
  | plain c rest ih =>
      rw [Derivation.toText, marked_cons_of_not fun hc => h hc.2, step_plain d c.property, ih h]
      rfl
  | pair kind inner rest ihInner ihRest =>
      have hopen := step_opening_ne_outermost d kind
      rw [Derivation.toText, marked_cons_of_not fun hc => h hc.2, marked_append, ihInner hopen,
        after_toText, marked_cons_of_not fun hc => hopen hc.2, step_closing_step_opening, ihRest h]
      rfl

theorem marked_toText
    (mark : PlainChar) (t : Derivation) :
    marked mark.val outermost t.toText = t.outerPlaces mark.val := by
  induction t with
  | empty => rfl
  | plain c rest ih =>
      simp only [Derivation.toText, marked, Derivation.outerPlaces, step_plain outermost c.property,
        ih, and_true]
  | pair kind inner rest _ ihRest =>
      have hopen := step_opening_ne_outermost outermost kind
      have hmark : kind.opening ≠ mark.val := by
        intro h
        apply mark.property
        rw [← h]
        cases kind <;> decide
      rw [Derivation.toText, marked_cons_of_not fun hc => hmark hc.1, marked_append,
        marked_toText_of_ne_outermost hopen, after_toText,
        marked_cons_of_not fun hc => hopen hc.2, step_closing_step_opening, ihRest]
      simp only [Derivation.outerPlaces, List.nil_append, List.map_map, Function.comp_def]
      congr 1
      funext place
      omega

end Depth

/-! ## Cuts at the marked places -/

namespace Text

theorem seams_cons
    (part : Text) {rest : List Text}
    (h : rest ≠ []) :
    seams (part :: rest) = part.length :: (seams rest).map (· + (part.length + 1)) := by
  cases rest with
  | nil => exact absurd rfl h
  | cons next rest => rfl

theorem seams_modifyHead_cons
    (c : Char) {parts : List Text}
    (h : parts ≠ []) :
    seams (parts.modifyHead (List.cons c)) = (seams parts).map (· + 1) := by
  cases parts with
  | nil => exact absurd rfl h
  | cons part rest =>
      cases rest with
      | nil => rfl
      | cons next rest => simp [seams, Function.comp_def, Nat.add_assoc]

theorem seams_segmentsFrom
    (d : Depth) (s : Text) :
    seams (segmentsFrom d s) = Depth.marked ':' d s := by
  induction s generalizing d with
  | nil => rfl
  | cons c s ih =>
      rw [segmentsFrom, Depth.marked]
      split
      · next h =>
          obtain ⟨rfl, -⟩ := h
          rw [seams_cons [] (segmentsFrom_ne_nil d s), ih]
          rfl
      · rw [seams_modifyHead_cons c (segmentsFrom_ne_nil _ s), ih]

theorem cutAtSlashFrom?_eq
    (d : Depth) (s : Text) :
    cutAtSlashFrom? d s =
      (Depth.marked '/' d s).getLast?.map fun place => (s.take place, s.drop (place + 1)) := by
  induction s generalizing d with
  | nil => rfl
  | cons c s ih =>
      rw [cutAtSlashFrom?, Depth.marked, ih]
      cases hlast : (Depth.marked '/' (d.step c) s).getLast? with
      | none =>
          rw [List.getLast?_eq_none_iff.1 hlast, Option.map_none]
          dsimp only
          split <;> rfl
      | some place =>
          rw [Option.map_some]
          dsimp only
          split <;> simp [List.getLast?_cons, hlast]

/-! ## Counters and stacks -/

theorem opened?_append
    (stack : List BracketKind) (s t : Text) :
    opened? stack (s ++ t) = (opened? stack s).bind fun next => opened? next t := by
  induction s generalizing stack with
  | nil => rfl
  | cons c s ih => simp [opened?, ih, Option.bind_assoc]

theorem openedStep?_plain
    (stack : List BracketKind) {c : Char}
    (h : c ∉ BracketKind.characters) :
    openedStep? stack c = some stack := by
  unfold openedStep?
  split
  all_goals first | rfl | exact absurd (by decide) h

theorem openedStep?_opening
    (stack : List BracketKind) (kind : BracketKind) :
    openedStep? stack kind.opening = some (kind :: stack) := by
  cases kind <;> rfl

theorem openedStep?_closing
    (stack : List BracketKind) (kind : BracketKind) :
    openedStep? (kind :: stack) kind.closing = some stack := by
  cases kind <;> rfl

/-- What one character can do to a stack. -/
theorem openedStep?_cases
    {stack next : List BracketKind} {c : Char}
    (h : openedStep? stack c = some next) :
    (∃ kind : BracketKind, c = kind.opening ∧ next = kind :: stack) ∨
    (∃ kind : BracketKind, c = kind.closing ∧ stack = kind :: next) ∨
    (c ∉ BracketKind.characters ∧ next = stack) := by
  unfold openedStep? at h
  split at h
  · cases h
    exact Or.inl ⟨.square, rfl, rfl⟩
  · cases h
    exact Or.inl ⟨.round, rfl, rfl⟩
  · split at h
    · next htop =>
        cases h
        obtain ⟨below, rfl⟩ := List.head?_eq_some_iff.1 htop
        exact Or.inr (Or.inl ⟨.square, rfl, rfl⟩)
    · cases h
  · split at h
    · next htop =>
        cases h
        obtain ⟨below, rfl⟩ := List.head?_eq_some_iff.1 htop
        exact Or.inr (Or.inl ⟨.round, rfl, rfl⟩)
    · cases h
  · next hsquare hround hsquareClosing hroundClosing =>
      cases h
      have hplain : c ∉ BracketKind.characters := by
        simp only [BracketKind.characters, List.mem_cons, List.not_mem_nil, or_false]
        rintro (rfl | rfl | rfl | rfl)
        · exact hsquare rfl
        · exact hsquareClosing rfl
        · exact hround rfl
        · exact hroundClosing rfl
      exact Or.inr (Or.inr ⟨hplain, rfl⟩)

/-- A step of the stack is a step of the counters, and a counter that goes down was not zero. -/
theorem step_of_openedStep?
    {stack next : List BracketKind} {c : Char}
    (h : openedStep? stack c = some next) :
    (Depth.ofStack stack).step c = Depth.ofStack next := by
  rcases openedStep?_cases h with ⟨kind, rfl, rfl⟩ | ⟨kind, rfl, rfl⟩ | ⟨hplain, rfl⟩
  · cases kind <;> simp [Depth.ofStack, Depth.step, BracketKind.opening]
  · cases kind <;> simp [Depth.ofStack, Depth.step, BracketKind.closing]
  · exact Depth.step_plain _ hplain

/-- Where the stack takes a text, the counters count what is on it. -/
theorem after_of_opened?
    {stack next : List BracketKind} {s : Text}
    (h : opened? stack s = some next) :
    (Depth.ofStack stack).after s = Depth.ofStack next := by
  induction s generalizing stack with
  | nil =>
      cases h
      rfl
  | cons c s ih =>
      obtain ⟨middle, hstep, hrest⟩ := Option.bind_eq_some_iff.1 h
      rw [Depth.after_cons, step_of_openedStep? hstep]
      exact ih hrest

theorem ofStack_eq_outermost_iff
    {stack : List BracketKind} :
    Depth.ofStack stack = Depth.outermost ↔ stack = [] := by
  cases stack with
  | nil => simp [Depth.ofStack, Depth.outermost]
  | cons kind stack => cases kind <;> simp [Depth.ofStack, Depth.outermost]

/-- The stack takes a derived text and is then as it was. -/
theorem opened?_toText
    (stack : List BracketKind) (t : Derivation) :
    opened? stack t.toText = some stack := by
  induction t generalizing stack with
  | empty => rfl
  | plain c rest ih =>
      rw [Derivation.toText, opened?, openedStep?_plain stack c.property]
      exact ih stack
  | pair kind inner rest ihInner ihRest =>
      rw [Derivation.toText, opened?, openedStep?_opening, Option.bind_some, opened?_append,
        ihInner, Option.bind_some, opened?, openedStep?_closing]
      exact ihRest stack

/-- Derived texts one after the other, each but the last followed by the bracket that closes the
next open one. -/
def Unwinds : List BracketKind → Text → Prop
  | [], s => ∃ t : Derivation, t.toText = s
  | kind :: stack, s =>
      ∃ (t : Derivation) (rest : Text), s = t.toText ++ kind.closing :: rest ∧ Unwinds stack rest

/-- What can be put before every derived text can be put before the first one. -/
theorem Unwinds.append
    {stack : List BracketKind} {s lead : Text}
    (hlead : ∀ t : Derivation, ∃ u : Derivation, u.toText = lead ++ t.toText)
    (h : Unwinds stack s) :
    Unwinds stack (lead ++ s) := by
  cases stack with
  | nil =>
      obtain ⟨t, rfl⟩ := h
      exact hlead t
  | cons kind stack =>
      obtain ⟨t, rest, rfl, hrest⟩ := h
      obtain ⟨u, hu⟩ := hlead t
      exact ⟨u, rest, by rw [hu, List.append_assoc], hrest⟩

theorem unwinds_of_opened?
    {stack : List BracketKind} {s : Text}
    (h : opened? stack s = some []) :
    Unwinds stack s := by
  induction s generalizing stack with
  | nil =>
      cases h
      exact ⟨.empty, rfl⟩
  | cons c s ih =>
      obtain ⟨next, hstep, hopened⟩ := Option.bind_eq_some_iff.1 h
      have hnext := ih hopened
      rcases openedStep?_cases hstep with ⟨kind, rfl, rfl⟩ | ⟨kind, rfl, rfl⟩ | ⟨hplain, rfl⟩
      · obtain ⟨inner, rest, rfl, hrest⟩ := hnext
        have hpair :
            ∀ t : Derivation, ∃ u : Derivation,
              u.toText = kind.opening :: (inner.toText ++ [kind.closing]) ++ t.toText :=
          fun t => ⟨.pair kind inner t, by simp [Derivation.toText]⟩
        simpa using hrest.append hpair
      · exact ⟨.empty, s, rfl, hnext⟩
      · have hchar :
            ∀ t : Derivation, ∃ u : Derivation, u.toText = [c] ++ t.toText :=
          fun t => ⟨.plain ⟨c, hplain⟩ t, rfl⟩
        exact hnext.append hchar

/-- The derived texts are those that leave an empty stack empty. -/
theorem opened?_eq_nil_iff
    {s : Text} :
    opened? [] s = some [] ↔ ∃ t : Derivation, t.toText = s := by
  constructor
  · exact unwinds_of_opened?
  · rintro ⟨t, rfl⟩
    exact opened?_toText [] t

/-- A stack that takes a text takes all that the text begins with. -/
theorem exists_opened?_take
    {stack next : List BracketKind} {s : Text}
    (h : opened? stack s = some next)
    (n : Nat) :
    ∃ middle, opened? stack (s.take n) = some middle := by
  rw [← List.take_append_drop n s, opened?_append] at h
  obtain ⟨middle, hmiddle, -⟩ := Option.bind_eq_some_iff.1 h
  exact ⟨middle, hmiddle⟩

/--
**Counters and derivations.**  The derived texts are those on which a stack of open brackets
starts and ends empty.  On a derived text the segments are joined exactly at the colons outside
of all pairs of the derivation, and the value is cut from its opacity at the last slash outside
of them, or not at all without one.  A character lies outside of all pairs exactly where the
stack is empty, and all along the text the counters count what is on the stack.
-/
theorem cuts_of_derivation :
    (∀ s : Text, opened? [] s = some [] ↔ ∃ t : Derivation, t.toText = s) ∧
    ∀ t : Derivation,
      (join [':'] t.toText.segments = t.toText ∧
        seams t.toText.segments = t.outerPlaces ':') ∧
      t.toText.splitOpacity =
        (match (t.outerPlaces '/').getLast? with
        | some place => (t.toText.take place, some (t.toText.drop (place + 1)))
        | none => (t.toText, none)) ∧
      (∀ (mark : PlainChar) (place : Nat),
        place ∈ t.outerPlaces mark.val ↔
          t.toText[place]? = some mark.val ∧ opened? [] (t.toText.take place) = some []) ∧
      ∀ n : Nat, ∃ stack, opened? [] (t.toText.take n) = some stack ∧
        Depth.outermost.after (t.toText.take n) = Depth.ofStack stack := by
  refine ⟨fun _ => opened?_eq_nil_iff, fun t => ?_⟩
  have hcolons := Depth.marked_toText ⟨':', by decide⟩ t
  have hslashes := Depth.marked_toText ⟨'/', by decide⟩ t
  have hstack (n : Nat) :
      ∃ stack, opened? [] (t.toText.take n) = some stack ∧
        Depth.outermost.after (t.toText.take n) = Depth.ofStack stack := by
    obtain ⟨stack, hopened⟩ := exists_opened?_take (opened?_toText [] t) n
    exact ⟨stack, hopened, after_of_opened? hopened⟩
  refine ⟨⟨join_segments _, ?_⟩, ?_, ?_, hstack⟩
  · exact (seams_segmentsFrom Depth.outermost t.toText).trans hcolons
  · rw [splitOpacity, cutAtSlashFrom?_eq, ← hslashes]
    cases (Depth.marked '/' Depth.outermost t.toText).getLast? <;> rfl
  · intro mark place
    obtain ⟨stack, hopened, hafter⟩ := hstack place
    rw [← Depth.marked_toText mark t, Depth.mem_marked_iff, hafter, ofStack_eq_outermost_iff,
      hopened, Option.some_inj]

end Text

end ClassLint
