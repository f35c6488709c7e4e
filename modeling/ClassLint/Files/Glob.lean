import ClassLint.Files.Glob.Part
import ClassLint.Text.Basic

/-!
# Written glob patterns

How the written form of a pattern is taken apart, and what is wrong with a malformed one.
A backslash makes the next character stand for itself.
-/

namespace ClassLint

namespace Glob

/-- What is wrong with a written pattern. -/
inductive ParseError where
  | unclosedClass
  | invalidRange (first last : Char)
  | unclosedAlternatives
  | unopenedAlternatives
  | danglingEscape
  deriving DecidableEq, Repr

/-- What the user is told. -/
def ParseError.message : ParseError → Text
  | unclosedClass => "unclosed character class; missing ']'".toList
  | invalidRange first last =>
      "invalid range; '".toList ++ first :: "' > '".toList ++ last :: "'".toList
  | unclosedAlternatives =>
      "unclosed alternate group; missing '\x7d' (maybe escape '\x7b' with '[\x7b]'?)".toList
  | unopenedAlternatives =>
      "unopened alternate group; missing '\x7b' (maybe escape '\x7d' with '[\x7d]'?)".toList
  | danglingEscape => "dangling '\\'".toList

/-! ## Classes -/

/-- The members of a class read so far, the latest first, and whether a hyphen waits for the end of
a range. -/
structure ClassState where
  ranges : List (Char × Char)
  inRange : Bool

namespace ClassState

/-- The state after one more character of the class. -/
def add (state : ClassState) (c : Char) : Except ParseError ClassState :=
  match state.inRange, state.ranges with
  | true, (first, _) :: earlier =>
      if c < first then .error (.invalidRange first c)
      else .ok ⟨(first, c) :: earlier, false⟩
  | _, ranges => .ok ⟨(c, c) :: ranges, false⟩

/-- The ranges of a finished class; a hyphen that still waits stands for itself. -/
def finish (state : ClassState) : List (Char × Char) :=
  (if state.inRange then ('-', '-') :: state.ranges else state.ranges).reverse

end ClassState

/-- The ranges of a class after its first character, and what follows the class. -/
def readClassRest (state : ClassState) : Text → Except ParseError (List (Char × Char) × Text)
  | [] => .error .unclosedClass
  | c :: rest =>
      if c = ']' then .ok (state.finish, rest)
      else if c = '-' ∧ state.inRange = false then readClassRest { state with inRange := true } rest
      else
        match state.add c with
        | .error e => .error e
        | .ok state => readClassRest state rest

/-- The ranges of a class after its opening bracket and negation, and what follows the class; the
first character always stands for itself. -/
def readClass : Text → Except ParseError (List (Char × Char) × Text)
  | [] => .error .unclosedClass
  | c :: rest => readClassRest ⟨[(c, c)], false⟩ rest

/-- Whether a class is negated, and what follows its negation. -/
def splitNegation : Text → Bool × Text
  | '!' :: rest => (true, rest)
  | '^' :: rest => (true, rest)
  | rest => (false, rest)

theorem readClassRest_length_le
    {state : ClassState} {s rest : Text} {ranges : List (Char × Char)}
    (h : readClassRest state s = .ok (ranges, rest)) :
    rest.length ≤ s.length := by
  induction s generalizing state with
  | nil => simp [readClassRest] at h
  | cons c s ih =>
      simp only [readClassRest] at h
      split at h
      · cases h
        simp
      · split at h
        · have := ih h
          simp
          omega
        · split at h
          · cases h
          · have := ih h
            simp
            omega

theorem readClass_length_le
    {s rest : Text} {ranges : List (Char × Char)}
    (h : readClass s = .ok (ranges, rest)) :
    rest.length ≤ s.length := by
  cases s with
  | nil => simp [readClass] at h
  | cons c s =>
      have := readClassRest_length_le h
      simp
      omega

theorem splitNegation_length_le
    (s : Text) :
    (splitNegation s).2.length ≤ s.length := by
  unfold splitNegation
  split <;> simp

/-! ## Patterns -/

/-- An open group: the finished branches before the current one, and the branch that the group
belongs to; the latest part of a branch stands first. -/
structure OpenGroup where
  finished : List (List Part)
  outer : List Part

/-- The pattern read so far. -/
structure ParseState where
  /-- Parts of the current branch, the latest first. -/
  branch : List Part
  /-- Open groups, the innermost first. -/
  groups : List OpenGroup
  /-- The character before the current place. -/
  previous : Option Char

namespace ParseState

/-- Nothing has been read. -/
def initial : ParseState := ⟨[], [], none⟩

/-- The state with further parts and the character that was read last. -/
def push (state : ParseState) (parts : List Part) (last : Char) : ParseState :=
  { state with branch := parts.reverse ++ state.branch, previous := some last }

/-- Opens a group. -/
def openGroup (state : ParseState) : ParseState :=
  ⟨[], ⟨[], state.branch⟩ :: state.groups, some '{'⟩

/-- Begins the next branch of the innermost group; outside of groups a comma stands for itself. -/
def nextBranch (state : ParseState) : ParseState :=
  match state.groups with
  | [] => state.push [.literal ','] ','
  | g :: gs => ⟨[], { g with finished := g.finished ++ [state.branch.reverse] } :: gs, some ','⟩

/-- Closes the innermost group. -/
def closeGroup (state : ParseState) : Except ParseError ParseState :=
  match state.groups with
  | [] => .error .unopenedAlternatives
  | g :: gs =>
      .ok ⟨.alternatives (g.finished ++ [state.branch.reverse]) :: g.outer, gs, some '}'⟩

/-- Two stars that are no component of their own. -/
def pushStars (state : ParseState) : ParseState :=
  state.push [.many, .many] '*'

/-- Replaces the separator in front of two stars by a part for components. -/
def replaceSeparator (state : ParseState) (part : Part) (last : Char) : ParseState :=
  match state.branch with
  | .leadingComponents :: _ => { state with previous := some last }
  | .trailingComponents :: _ => { state with previous := some last }
  | _ :: earlier => { state with branch := part :: earlier, previous := some last }
  | [] => { state with branch := [part], previous := some last }

/-- Whether two stars may stand for components here, going by what precedes them. -/
def mayBeginComponent (state : ParseState) : Bool :=
  state.previous == some '/' ||
    (!state.groups.isEmpty && (state.previous == some ',' || state.previous == some '{'))

/-- Whether the text ends the current branch. -/
def endsBranch (state : ParseState) : Text → Bool
  | [] => true
  | c :: _ => !state.groups.isEmpty && (c == ',' || c == '}')

/-- The state after two stars in front of the given text, and what follows; a slash after stars
that stand for components belongs to them. -/
def pushDoubleStar (state : ParseState) (rest : Text) : ParseState × Text :=
  if state.branch.isEmpty then
    match rest with
    | [] => (state.push [.leadingComponents] '*', [])
    | '/' :: rest => (state.push [.leadingComponents] '/', rest)
    | rest => (state.pushStars, rest)
  else if !state.mayBeginComponent then (state.pushStars, rest)
  else if state.endsBranch rest then (state.replaceSeparator .trailingComponents '*', rest)
  else
    match rest with
    | '/' :: rest => (state.replaceSeparator .innerComponents '/', rest)
    | rest => (state.pushStars, rest)

theorem pushDoubleStar_length_le
    (state : ParseState) (rest : Text) :
    (state.pushDoubleStar rest).2.length ≤ rest.length := by
  unfold pushDoubleStar
  repeat' split
  all_goals simp

end ParseState

/-- Reads the rest of a pattern; once a class was found to be unclosed, brackets stand for
themselves. -/
def readParts (classes : Bool) (options : Options) (state : ParseState) (s : Text) :
    Except ParseError (List Part) :=
  match s with
  | [] => if state.groups.isEmpty then .ok state.branch.reverse else .error .unclosedAlternatives
  | '?' :: rest => readParts classes options (state.push [.one] '?') rest
  | '*' :: '*' :: rest =>
      let next := state.pushDoubleStar rest
      readParts classes options next.1 next.2
  | '*' :: rest => readParts classes options (state.push [.many] '*') rest
  | '{' :: rest => readParts classes options state.openGroup rest
  | '}' :: rest =>
      match state.closeGroup with
      | .error e => .error e
      | .ok state => readParts classes options state rest
  | ',' :: rest => readParts classes options state.nextBranch rest
  | '\\' :: [] => .error .danglingEscape
  | '\\' :: c :: rest => readParts classes options (state.push [.literal c] c) rest
  | '[' :: rest =>
      if classes then
        match _hclass : readClass (splitNegation rest).2 with
        | .ok (ranges, past) =>
            readParts classes options (state.push [.oneOf (splitNegation rest).1 ranges] ']') past
        | .error e =>
            if options.allowUnclosedClass ∧ e = .unclosedClass then
              readParts false options (state.push [.literal '['] '[') rest
            else .error e
      else readParts classes options (state.push [.literal '['] '[') rest
  | c :: rest => readParts classes options (state.push [.literal c] c) rest
  termination_by s.length
  decreasing_by
    all_goals simp only [List.length_cons]
    · omega
    · have := state.pushDoubleStar_length_le rest
      omega
    · omega
    · omega
    · omega
    · omega
    · omega
    · have := readClass_length_le _hclass
      have := splitNegation_length_le rest
      omega
    · omega
    · omega
    · omega

/-- The parts of a written pattern. -/
def parse (options : Options) (pattern : Text) : Except ParseError (List Part) :=
  readParts true options .initial pattern

end Glob

end ClassLint
