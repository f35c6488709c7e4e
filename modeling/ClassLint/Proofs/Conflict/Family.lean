import ClassLint.Proofs.Conflict.FamilyTests
import Mathlib.Data.List.Nodup

/-!
# Groups and the families they belong to

A group is given to bases of one form only: to those of one family, and for borders and paddings
to those of one side or edge of it.  The two halves of a name such as `border-slate-500` are not
taken for a side and a value, since a side has a hyphen after it or nothing at all.

What a border utility sets is decided by its value, whichever side it is written for.

**Results.**
* `name_injective`: groups are told apart by their names.
* `hasForm_of_ofBase?`: the form of a base with a given group.
* `ofBase?_border_side`, `aspect_of_border_all`: what a border utility sets.
* `group_determines_form`: forms, tests and values together.
-/

namespace ClassLint

/-- The letter that stands for the side after `border-`; a whole border has none. -/
def BorderSide.letter? : BorderSide → Option Char
  | all => none
  | horizontal => some 'x'
  | vertical => some 'y'
  | top => some 't'
  | right => some 'r'
  | bottom => some 'b'
  | left => some 'l'
  | inlineStart => some 's'
  | inlineEnd => some 'e'

theorem BorderSide.ofLetter?_eq_some_iff
    {letter : Char} {side : BorderSide} :
    ofLetter? letter = some side ↔ side.letter? = some letter := by
  constructor
  · intro h
    unfold ofLetter? at h
    split at h <;> cases h <;> rfl
  · intro h
    cases side <;> cases h <;> rfl

/-- The beginnings of the utilities that set the padding. -/
def PaddingEdge.leads : PaddingEdge → List Text
  | all => Text.ofStrings ["p-"]
  | horizontal => Text.ofStrings ["px-"]
  | vertical => Text.ofStrings ["py-"]
  | top => Text.ofStrings ["pt-"]
  | right => Text.ofStrings ["pr-", "pe-"]
  | bottom => Text.ofStrings ["pb-"]
  | left => Text.ofStrings ["pl-", "ps-"]

/-- All sides of a border. -/
def BorderSide.every : List BorderSide :=
  [all, horizontal, vertical, top, right, bottom, left, inlineStart, inlineEnd]

/-- All that a border utility can set. -/
def BorderAspect.every : List BorderAspect :=
  [width, style, color]

/-- All edges of a padding. -/
def PaddingEdge.every : List PaddingEdge :=
  [all, horizontal, vertical, top, right, bottom, left]

namespace ConflictGroup

/-! ## Names of groups -/

/-- All groups. -/
def every : List ConflictGroup :=
  [backgroundColor, textColor, rounded, ringWidth, ringColor, ringInset, ringOffsetWidth,
    ringOffsetColor, outlineWidth, outlineStyle, outlineColor, outlineOffset, shadow, opacity] ++
  PaddingEdge.every.map padding ++
  BorderAspect.every.flatMap fun aspect => BorderSide.every.map (border aspect)

theorem mem_every
    (group : ConflictGroup) :
    group ∈ every := by
  cases group with
  | padding edge => cases edge <;> decide
  | border aspect side => cases aspect <;> cases side <;> decide
  | _ => decide

theorem name_injective :
    Function.Injective name := by
  have hnodup : (every.map name).Nodup := by decide +kernel
  intro group other hname
  exact List.inj_on_of_nodup_map hnodup (mem_every group) (mem_every other) hname

/-! ## What the groups say about a base -/

/-- What follows `border-` is no side, alone or with a hyphen after it. -/
def HasNoSide (rest : Text) : Prop :=
  ∀ (side : BorderSide) (letter : Char), side.letter? = some letter → inFamily rest [letter] = false

/-- The form that a base of the group has. -/
def HasForm (base : Text) : ConflictGroup → Prop
  | backgroundColor => base.continues "bg-".toList = true
  | textColor => base.continues "text-".toList = true
  | rounded => inFamily base "rounded".toList = true
  | padding edge => ∃ lead ∈ edge.leads, base.continues lead = true
  | border _ .all =>
      base = "border".toList ∨ ∃ rest, base = "border-".toList ++ rest ∧ HasNoSide rest
  | border _ side =>
      ∃ letter, side.letter? = some letter ∧ inFamily base ("border-".toList ++ [letter]) = true
  | ringWidth | ringColor | ringInset => inFamily base "ring".toList = true
  | ringOffsetWidth | ringOffsetColor => base.startsWith "ring-offset-".toList = true
  | outlineWidth | outlineStyle | outlineColor => inFamily base "outline".toList = true
  | outlineOffset => base.startsWith "outline-offset-".toList = true
  | shadow => inFamily base "shadow".toList = true ∨ inFamily base "drop-shadow".toList = true
  | opacity => base.continues "opacity-".toList = true

theorem hasForm_of_ofBackground?
    {value : Text} {group : ConflictGroup}
    (h : ofBackground? value = some group) :
    HasForm ("bg-".toList ++ value) group := by
  unfold ofBackground? at h
  split at h
  · cases h
  · next hcolor =>
      cases h
      cases value with
      | nil => exact absurd rfl hcolor
      | cons c rest => exact Text.continues_iff.2 ⟨c, rest, rfl⟩

theorem hasForm_of_ofText?
    {raw : Text} {group : ConflictGroup}
    (h : ofText? raw = some group) :
    HasForm ("text-".toList ++ raw) group := by
  unfold ofText? at h
  dsimp only at h
  split at h
  · cases h
  · next hcolor =>
      cases h
      cases raw with
      | nil => exact absurd rfl hcolor
      | cons c rest => exact Text.continues_iff.2 ⟨c, rest, rfl⟩

theorem hasForm_of_mem_paddingFamilies
    {base : Text} {family : Text × PaddingEdge}
    (hfamily : family ∈ paddingFamilies)
    (h : base.continues family.1 = true) :
    HasForm base (.padding family.2) := by
  have hleads : ∀ family ∈ paddingFamilies, family.1 ∈ family.2.leads := by decide
  exact ⟨family.1, hleads family hfamily, h⟩

theorem hasForm_ofRing
    {base : Text}
    (h : inFamily base "ring".toList = true) :
    HasForm base (ofRing base) := by
  unfold ofRing
  split
  · exact h
  · split
    · next value _ hdrop =>
        have hstarts : base.startsWith "ring-offset-".toList = true := by
          rw [Text.startsWith, hdrop]
          rfl
        split <;> exact hstarts
    · split <;> exact h
    · exact h

theorem hasForm_ofOutline
    {base : Text}
    (h : inFamily base "outline".toList = true) :
    HasForm base (ofOutline base) := by
  unfold ofOutline
  split
  · assumption
  · split
    · exact h
    · split
      · exact h
      · split <;> exact h

/-! ## Sides of borders -/

theorem ofBorderRest_letter
    {side : BorderSide} {letter : Char}
    (h : side.letter? = some letter) :
    ofBorderRest [letter] = .border .width side := by
  simp only [ofBorderRest, BorderSide.ofLetter?_eq_some_iff.2 h]

theorem ofBorderRest_side
    {side : BorderSide} {letter : Char}
    (h : side.letter? = some letter)
    (value : Text) :
    ofBorderRest (letter :: '-' :: value) = .border (borderAspect value) side := by
  simp only [ofBorderRest, BorderSide.ofLetter?_eq_some_iff.2 h]

theorem ofBorderRest_of_hasNoSide
    {rest : Text}
    (h : HasNoSide rest) :
    ofBorderRest rest = .border (borderAspect rest) .all := by
  unfold ofBorderRest
  split
  · rfl
  · next letter following =>
      split
      · next side hside =>
          have hfamily : inFamily [letter] [letter] = true := inFamily_iff.2 (Or.inl rfl)
          rw [h side letter (BorderSide.ofLetter?_eq_some_iff.1 hside)] at hfamily
          cases hfamily
      · next side value hside =>
          have hfamily : inFamily (letter :: '-' :: value) [letter] = true :=
            inFamily_iff.2 (Or.inr ⟨value, rfl⟩)
          rw [h side letter (BorderSide.ofLetter?_eq_some_iff.1 hside)] at hfamily
          cases hfamily
      · rfl

/-- What follows `border-` begins with a side, alone or before a value, or it does not. -/
theorem hasNoSide_or
    (rest : Text) :
    HasNoSide rest ∨
      ∃ (side : BorderSide) (letter : Char), side.letter? = some letter ∧
        (rest = [letter] ∨ ∃ value, rest = letter :: '-' :: value) := by
  by_cases h : HasNoSide rest
  · exact Or.inl h
  · unfold HasNoSide at h
    push Not at h
    obtain ⟨side, letter, hletter, hfamily⟩ := h
    exact Or.inr ⟨side, letter, hletter, inFamily_iff.1 (eq_true_of_ne_false hfamily)⟩

theorem hasForm_of_side
    {base : Text} {aspect : BorderAspect} {side : BorderSide} {letter : Char}
    (hletter : side.letter? = some letter)
    (h : inFamily base ("border-".toList ++ [letter]) = true) :
    HasForm base (.border aspect side) := by
  cases side with
  | all => cases hletter
  | _ => exact ⟨letter, hletter, h⟩

theorem hasForm_ofBorderRest
    (rest : Text) :
    HasForm ("border-".toList ++ rest) (ofBorderRest rest) := by
  rcases hasNoSide_or rest with hnone | ⟨side, letter, hletter, rfl | ⟨value, rfl⟩⟩
  · rw [ofBorderRest_of_hasNoSide hnone]
    exact Or.inr ⟨rest, rfl, hnone⟩
  · rw [ofBorderRest_letter hletter]
    exact hasForm_of_side hletter (inFamily_iff.2 (Or.inl rfl))
  · rw [ofBorderRest_side hletter]
    exact hasForm_of_side hletter (inFamily_iff.2 (Or.inr ⟨value, rfl⟩))

theorem hasForm_of_ofBorder?
    {base : Text} {group : ConflictGroup}
    (hfamily : inFamily base "border".toList = true)
    (h : ofBorder? base = some group) :
    HasForm base group := by
  unfold ofBorder? at h
  split at h
  · cases h
  · rcases inFamily_iff.1 hfamily with rfl | ⟨rest, rfl⟩
    · cases h
      exact Or.inl rfl
    · have hdrop :
          Text.dropLead? ("border".toList ++ '-' :: rest) "border-".toList = some rest :=
        Text.dropLead?_eq_some_iff.2 rfl
      rw [hdrop] at h
      cases h
      exact hasForm_ofBorderRest rest

/-- The group of a base determines its form. -/
theorem hasForm_of_ofBase?
    {base : Text} {group : ConflictGroup}
    (h : ofBase? base = some group) :
    HasForm base group := by
  obtain ⟨test, htest, haccepts, hgroup⟩ := exists_test_of_ofBase? h
  rcases mem_familyTests_iff.1 htest with
    rfl | rfl | rfl | ⟨family, hfamily, rfl⟩ | rfl | rfl | rfl | rfl | rfl
  · obtain ⟨value, rfl, hvalue⟩ := FamilyTest.exists_of_leading haccepts hgroup
    exact hasForm_of_ofBackground? hvalue
  · obtain ⟨raw, rfl, hraw⟩ := FamilyTest.exists_of_leading haccepts hgroup
    exact hasForm_of_ofText? hraw
  · rw [roundedTest, FamilyTest.accepts_named_singleton] at haccepts
    cases hgroup
    exact haccepts
  · cases hgroup
    exact hasForm_of_mem_paddingFamilies hfamily haccepts
  · rw [borderTest, FamilyTest.accepts_named_singleton] at haccepts
    exact hasForm_of_ofBorder? haccepts hgroup
  · rw [ringTest, FamilyTest.accepts_named_singleton] at haccepts
    cases hgroup
    exact hasForm_ofRing haccepts
  · rw [outlineTest, FamilyTest.accepts_named_singleton] at haccepts
    cases hgroup
    exact hasForm_ofOutline haccepts
  · obtain ⟨name, hname, hnamed⟩ := List.any_eq_true.1 haccepts
    cases hgroup
    rcases List.mem_pair.1 hname with rfl | rfl
    · exact Or.inl hnamed
    · exact Or.inr hnamed
  · cases hgroup
    exact haccepts

/-! ## Values of borders -/

/-- With a side, what a border utility sets depends on its value alone. -/
theorem ofBase?_border_side
    {side : BorderSide} {letter : Char}
    (h : side.letter? = some letter)
    (value : Text) :
    ofBase? ("border-".toList ++ letter :: '-' :: value) =
      some (.border (borderAspect value) side) := by
  have htable :
      ∀ other ∈ Text.ofStrings ["border-spacing", "border-collapse", "border-separate"],
        Text.diverges ("border-".toList ++ [letter, '-']) other = true := by
    cases side <;> cases h <;> decide
  have hsplit :
      "border-".toList ++ letter :: '-' :: value =
        ("border-".toList ++ [letter, '-']) ++ value := by
    simp
  have hspacing :=
    Text.startsWith_append_of_diverges (htable "border-spacing".toList (by decide)) value
  have hcollapse := Text.append_ne_of_diverges (htable "border-collapse".toList (by decide)) value
  have hseparate := Text.append_ne_of_diverges (htable "border-separate".toList (by decide)) value
  rw [ofBase?_border_append, hsplit, hspacing, beq_eq_false_iff_ne.2 hcollapse,
    beq_eq_false_iff_ne.2 hseparate, ofBorderRest_side h]
  rfl

theorem aspect_of_border_all
    {value : Text} {aspect : BorderAspect}
    (h : ofBase? ("border-".toList ++ value) = some (.border aspect .all)) :
    aspect = borderAspect value := by
  rw [ofBase?_border_append] at h
  split at h
  · cases h
  · rcases hasNoSide_or value with hnone | ⟨side, letter, hletter, rfl | ⟨value, rfl⟩⟩
    · rw [ofBorderRest_of_hasNoSide hnone] at h
      cases h
      rfl
    · rw [ofBorderRest_letter hletter] at h
      cases h
      cases hletter
    · rw [ofBorderRest_side hletter] at h
      cases h
      cases hletter

/--
**Groups determine forms.**  Groups are told apart by their names, and a group is given to bases
of its own form only.  No base passes the tests for two families and the empty base passes none,
so the tests may be asked in any order.  Behind a side, what a border utility sets depends on its
value alone, and it is what the same value sets for the whole border wherever it is not taken for
a side.
-/
theorem group_determines_form :
    Function.Injective name ∧
    (∀ (base : Text) (group : ConflictGroup),
      ofBase? base = some group → HasForm base group) ∧
    familyTests.Pairwise FamilyTest.Excludes ∧
    (∀ test ∈ familyTests, test.accepts [] = false) ∧
    (∀ tests : List FamilyTest, tests.Perm familyTests →
      ∀ base, firstGroup? base tests = ofBase? base) ∧
    (∀ (side : BorderSide) (letter : Char), side.letter? = some letter → ∀ value : Text,
      ofBase? ("border-".toList ++ letter :: '-' :: value) =
        some (.border (borderAspect value) side)) ∧
    (∀ (value : Text) (aspect : BorderAspect),
      ofBase? ("border-".toList ++ value) = some (.border aspect .all) →
        aspect = borderAspect value) := by
  refine ⟨name_injective, fun _ _ => hasForm_of_ofBase?, pairwise_excludes_familyTests, by decide,
    ?_, fun _ _ => ofBase?_border_side, fun _ _ => aspect_of_border_all⟩
  intro tests hperm base
  rw [firstGroup?_perm pairwise_excludes_familyTests hperm, firstGroup?_familyTests]

/-- Values that begin with the letter of a side, an offset asked for last, and a logical edge. -/
theorem group_determines_form_closeNames :
    HasForm "border-slate-500".toList (.border .color .all) ∧
    HasForm "pe-4".toList (.padding .right) ∧
    firstGroup? "ring-offset-2".toList familyTests.reverse = some .ringOffsetWidth ∧
    ofBase? "border-s-dashed".toList = some (.border .style .inlineStart) ∧
    ofBase? "border-dashed".toList = some (.border .style .all) ∧
    (backgroundTest.accepts [] = false) ∧
    borderAspect "dashed".toList = .style := by
  obtain ⟨-, hform, -, hempty, hperm, hside, haspect⟩ := group_determines_form
  have hwhole : ofBase? "border-dashed".toList = some (.border .style .all) := by decide
  refine ⟨hform _ _ (by decide), hform _ _ (by decide), ?_, ?_, hwhole, ?_, ?_⟩
  · exact (hperm _ (List.reverse_perm _) _).trans (by decide)
  · exact hside .inlineStart 's' rfl "dashed".toList
  · exact hempty _ (mem_familyTests_iff.2 (Or.inl rfl))
  · exact (haspect "dashed".toList .style hwhole).symm

end ConflictGroup

end ClassLint
