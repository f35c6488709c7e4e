import ClassLint.Proofs.Text.Beginnings
import ClassLint.Utility.ConflictGroup
import Mathlib.Data.List.Perm.Basic

/-!
# Tests for families of utilities

A base is put to one test after the other, each for a family of utilities, and the first test
that it passes gives its group or leaves it without one.  Every test only passes bases with a
beginning of its own, and no beginning goes on as another one does.  So a base passes one test
at most, and any order of the tests gives the same groups.

**Results.**
* `firstGroup?_familyTests`: the group of a base is what the first test gives that it passes.
* `pairwise_excludes_familyTests`: no base passes two tests.
* `firstGroup?_perm`: the order of tests that exclude each other does not matter.
* `ofBase?_of_accepts`, `exists_test_of_ofBase?`: the group of a base is read off the one test that
  it passes.
-/

namespace ClassLint

namespace ConflictGroup

/-! ## Tests -/

/-- A test for bases, with the group of a base that passes it.  A base passes only if it begins
with one of the leads. -/
structure FamilyTest where
  leads : List Text
  accepts : Text → Bool
  group? : Text → Option ConflictGroup
  startsWith_of_accepts :
    ∀ base, accepts base = true → ∃ lead ∈ leads, base.startsWith lead = true

namespace FamilyTest

theorem startsWith_of_inFamily
    {base family : Text}
    (h : inFamily base family = true) :
    base.startsWith family = true := by
  rcases inFamily_iff.1 h with rfl | ⟨rest, rfl⟩
  · exact Text.startsWith_iff.2 ⟨[], by simp⟩
  · exact Text.startsWith_append family ('-' :: rest)

/-- The bases that begin with the lead; what follows it decides on the group. -/
def leading (lead : Text) (ofValue? : Text → Option ConflictGroup) : FamilyTest where
  leads := [lead]
  accepts base := base.startsWith lead
  group? base := ofValue? (base.withoutLead lead)
  startsWith_of_accepts _ h := ⟨lead, List.mem_singleton_self lead, h⟩

/-- The bases that begin with the lead and go on after it, all of one group. -/
def continuing (lead : Text) (group : ConflictGroup) : FamilyTest where
  leads := [lead]
  accepts base := base.continues lead
  group? _ := some group
  startsWith_of_accepts _ h := ⟨lead, List.mem_singleton_self lead, Text.startsWith_of_continues h⟩

/-- The bases that are one of the names, or go on with a hyphen after it. -/
def named (names : List Text) (ofBase? : Text → Option ConflictGroup) : FamilyTest where
  leads := names
  accepts base := names.any (inFamily base)
  group? := ofBase?
  startsWith_of_accepts base h := by
    obtain ⟨name, hname, hfamily⟩ := List.any_eq_true.1 h
    exact ⟨name, hname, startsWith_of_inFamily hfamily⟩

theorem exists_of_leading
    {base lead : Text} {ofValue? : Text → Option ConflictGroup} {group : ConflictGroup}
    (haccepts : (leading lead ofValue?).accepts base = true)
    (hgroup : (leading lead ofValue?).group? base = some group) :
    ∃ value, base = lead ++ value ∧ ofValue? value = some group := by
  obtain ⟨value, rfl⟩ := Text.startsWith_iff.1 haccepts
  have hvalue : ofValue? (Text.withoutLead (lead ++ value) lead) = some group := hgroup
  rw [Text.withoutLead_append] at hvalue
  exact ⟨value, rfl, hvalue⟩

theorem accepts_named_singleton
    (name : Text) (ofBase? : Text → Option ConflictGroup) (base : Text) :
    (named [name] ofBase?).accepts base = inFamily base name := by
  simp [named]

end FamilyTest

/-- Utilities of backgrounds. -/
def backgroundTest : FamilyTest := .leading "bg-".toList ofBackground?

/-- Utilities of text. -/
def textTest : FamilyTest := .leading "text-".toList ofText?

/-- Utilities of rounded corners. -/
def roundedTest : FamilyTest := .named ["rounded".toList] fun _ => some .rounded

/-- Utilities of one padding. -/
def paddingTest (family : Text × PaddingEdge) : FamilyTest :=
  .continuing family.1 (.padding family.2)

/-- Utilities of borders. -/
def borderTest : FamilyTest := .named ["border".toList] ofBorder?

/-- Utilities of rings. -/
def ringTest : FamilyTest := .named ["ring".toList] fun base => some (ofRing base)

/-- Utilities of outlines. -/
def outlineTest : FamilyTest := .named ["outline".toList] fun base => some (ofOutline base)

/-- Utilities of shadows. -/
def shadowTest : FamilyTest :=
  .named ["shadow".toList, "drop-shadow".toList] fun _ => some .shadow

/-- Utilities of opacity. -/
def opacityTest : FamilyTest := .continuing "opacity-".toList .opacity

/-- The tests for the families in the order in which a base is put to them. -/
def familyTests : List FamilyTest :=
  [backgroundTest, textTest, roundedTest] ++ paddingFamilies.map paddingTest ++
    [borderTest, ringTest, outlineTest, shadowTest, opacityTest]

theorem mem_familyTests_iff
    {test : FamilyTest} :
    test ∈ familyTests ↔
      test = backgroundTest ∨ test = textTest ∨ test = roundedTest ∨
        (∃ family ∈ paddingFamilies, paddingTest family = test) ∨
        test = borderTest ∨ test = ringTest ∨ test = outlineTest ∨ test = shadowTest ∨
        test = opacityTest := by
  simp only [familyTests, List.mem_append, List.mem_cons, List.mem_map, List.not_mem_nil, or_false,
    or_assoc]

/-- The group that the first test gives to a base that passes it. -/
def firstGroup? (base : Text) : List FamilyTest → Option ConflictGroup
  | [] => none
  | test :: tests => if test.accepts base then test.group? base else firstGroup? base tests

section FirstGroup

theorem firstGroup?_nil
    (base : Text) :
    firstGroup? base [] = none :=
  rfl

variable (base : Text) (tests : List FamilyTest)

theorem firstGroup?_leading
    (lead : Text) (ofValue? : Text → Option ConflictGroup) :
    firstGroup? base (.leading lead ofValue? :: tests) =
      match base.dropLead? lead with
      | some value => ofValue? value
      | none => firstGroup? base tests := by
  cases hdrop : base.dropLead? lead <;>
    simp [firstGroup?, FamilyTest.leading, Text.startsWith, Text.withoutLead, hdrop]

theorem firstGroup?_continuing
    (lead : Text) (group : ConflictGroup) :
    firstGroup? base (.continuing lead group :: tests) =
      if base.continues lead then some group else firstGroup? base tests :=
  rfl

theorem firstGroup?_named
    (names : List Text) (ofBase? : Text → Option ConflictGroup) :
    firstGroup? base (.named names ofBase? :: tests) =
      if names.any (inFamily base) then ofBase? base else firstGroup? base tests :=
  rfl

theorem firstGroup?_paddings
    (families : List (Text × PaddingEdge)) :
    firstGroup? base (families.map paddingTest ++ tests) =
      match (families.find? fun family => base.continues family.1).map Prod.snd with
      | some edge => some (.padding edge)
      | none => firstGroup? base tests := by
  induction families with
  | nil => rfl
  | cons family families ih =>
      rw [List.map_cons, List.cons_append, paddingTest, firstGroup?_continuing, ih,
        List.find?_cons]
      cases base.continues family.1 <;> rfl

end FirstGroup

theorem firstGroup?_familyTests
    (base : Text) :
    firstGroup? base familyTests = ofBase? base := by
  unfold familyTests ofBase? paddingEdge?
  rw [List.append_assoc, List.cons_append, List.cons_append, backgroundTest, textTest,
    firstGroup?_leading, firstGroup?_leading]
  cases base.dropLead? "bg-".toList with
  | some value => rfl
  | none =>
      cases base.dropLead? "text-".toList with
      | some raw => rfl
      | none =>
          cases hedge : (paddingFamilies.find? fun family => base.continues family.1).map Prod.snd
          all_goals
            simp only [List.cons_append, List.nil_append, roundedTest, borderTest, ringTest,
              outlineTest, shadowTest, opacityTest, firstGroup?_named, firstGroup?_paddings, hedge,
              firstGroup?_continuing, firstGroup?_nil, List.any_cons, List.any_nil, Bool.or_false]

/-- The tests for different families have no beginnings in common. -/
theorem pairwise_diverges_familyTests :
    familyTests.Pairwise fun test other =>
      ∀ lead ∈ test.leads, ∀ otherLead ∈ other.leads, Text.diverges lead otherLead = true := by
  decide

/-! ## Tests that exclude each other -/

/-- No base passes both tests. -/
def FamilyTest.Excludes (test other : FamilyTest) : Prop :=
  ∀ base, ¬ (test.accepts base = true ∧ other.accepts base = true)

theorem FamilyTest.Excludes.symm
    {test other : FamilyTest}
    (h : test.Excludes other) :
    other.Excludes test :=
  fun base hboth => h base hboth.symm

theorem FamilyTest.excludes_of_diverges
    {test other : FamilyTest}
    (h : ∀ lead ∈ test.leads, ∀ otherLead ∈ other.leads, Text.diverges lead otherLead = true) :
    test.Excludes other := by
  rintro base ⟨htest, hother⟩
  obtain ⟨lead, hlead, hstarts⟩ := test.startsWith_of_accepts base htest
  obtain ⟨otherLead, hotherLead, hotherStarts⟩ := other.startsWith_of_accepts base hother
  obtain ⟨rest, rfl⟩ := Text.startsWith_iff.1 hstarts
  rw [Text.startsWith_append_of_diverges (h lead hlead otherLead hotherLead)] at hotherStarts
  cases hotherStarts

theorem pairwise_excludes_familyTests :
    familyTests.Pairwise FamilyTest.Excludes :=
  pairwise_diverges_familyTests.imp FamilyTest.excludes_of_diverges

/-- Among tests that exclude each other, the one that a base passes is the first that it passes. -/
theorem firstGroup?_of_accepts
    {base : Text} {tests : List FamilyTest} {test : FamilyTest}
    (hexcludes : tests.Pairwise FamilyTest.Excludes)
    (htest : test ∈ tests)
    (haccepts : test.accepts base = true) :
    firstGroup? base tests = test.group? base := by
  induction tests with
  | nil => cases htest
  | cons head tests ih =>
      obtain ⟨hhead, hrest⟩ := List.pairwise_cons.1 hexcludes
      rcases List.mem_cons.1 htest with rfl | htest
      · exact if_pos haccepts
      · have hrefuses : ¬ head.accepts base = true := fun h => hhead test htest base ⟨h, haccepts⟩
        rw [firstGroup?, if_neg hrefuses, ih hrest htest]

theorem firstGroup?_of_no_accepts
    {base : Text} {tests : List FamilyTest}
    (h : ∀ test ∈ tests, ¬ test.accepts base = true) :
    firstGroup? base tests = none := by
  induction tests with
  | nil => rfl
  | cons head tests ih =>
      obtain ⟨hhead, hrest⟩ := List.forall_mem_cons.1 h
      rw [firstGroup?, if_neg hhead, ih hrest]

/-- The order of tests that exclude each other does not matter. -/
theorem firstGroup?_perm
    {tests others : List FamilyTest}
    (hexcludes : others.Pairwise FamilyTest.Excludes)
    (hperm : tests.Perm others)
    (base : Text) :
    firstGroup? base tests = firstGroup? base others := by
  have hexcludes' : tests.Pairwise FamilyTest.Excludes :=
    (hperm.pairwise_iff FamilyTest.Excludes.symm).2 hexcludes
  by_cases haccepts : ∃ test ∈ others, test.accepts base = true
  · obtain ⟨test, htest, haccepts⟩ := haccepts
    rw [firstGroup?_of_accepts hexcludes htest haccepts,
      firstGroup?_of_accepts hexcludes' (hperm.mem_iff.2 htest) haccepts]
  · have hnone : ∀ test ∈ others, ¬ test.accepts base = true :=
      fun test htest h => haccepts ⟨test, htest, h⟩
    rw [firstGroup?_of_no_accepts hnone,
      firstGroup?_of_no_accepts fun test htest => hnone test (hperm.mem_iff.1 htest)]

/-- A base that passes one of the tests has the group that this test gives to it. -/
theorem ofBase?_of_accepts
    {base : Text} {test : FamilyTest}
    (htest : test ∈ familyTests)
    (haccepts : test.accepts base = true) :
    ofBase? base = test.group? base := by
  rw [← firstGroup?_familyTests]
  exact firstGroup?_of_accepts pairwise_excludes_familyTests htest haccepts

/-- A base with a group passes the test that gives it. -/
theorem exists_test_of_ofBase?
    {base : Text} {group : ConflictGroup}
    (h : ofBase? base = some group) :
    ∃ test ∈ familyTests, test.accepts base = true ∧ test.group? base = some group := by
  by_cases haccepts : ∃ test ∈ familyTests, test.accepts base = true
  · obtain ⟨test, htest, haccepts⟩ := haccepts
    exact ⟨test, htest, haccepts, (ofBase?_of_accepts htest haccepts).symm.trans h⟩
  · have hnone : ∀ test ∈ familyTests, ¬ test.accepts base = true :=
      fun test htest h => haccepts ⟨test, htest, h⟩
    rw [← firstGroup?_familyTests, firstGroup?_of_no_accepts hnone] at h
    cases h

/-- A base that begins as no family does has no group. -/
theorem ofBase?_append_eq_none
    {lead : Text}
    (h : ∀ test ∈ familyTests, ∀ other ∈ test.leads, Text.diverges lead other = true)
    (rest : Text) :
    ofBase? (lead ++ rest) = none := by
  rw [Option.eq_none_iff_forall_ne_some]
  intro group hgroup
  obtain ⟨test, htest, haccepts, -⟩ := exists_test_of_ofBase? hgroup
  obtain ⟨other, hother, hstarts⟩ := test.startsWith_of_accepts _ haccepts
  rw [Text.startsWith_append_of_diverges (h test htest other hother)] at hstarts
  cases hstarts

/-! ## Bases by the beginning of their family -/

theorem ofBase?_of_leading
    {lead : Text} {ofValue? : Text → Option ConflictGroup}
    (htest : FamilyTest.leading lead ofValue? ∈ familyTests)
    (value : Text) :
    ofBase? (lead ++ value) = ofValue? value := by
  have hgroup :
      ofBase? (lead ++ value) = ofValue? (Text.withoutLead (lead ++ value) lead) :=
    ofBase?_of_accepts htest (Text.startsWith_append lead value)
  rw [hgroup, Text.withoutLead_append]

theorem ofBase?_of_named
    {name : Text} {ofNamed? : Text → Option ConflictGroup}
    (htest : FamilyTest.named [name] ofNamed? ∈ familyTests)
    (rest : Text) :
    ofBase? (name ++ '-' :: rest) = ofNamed? (name ++ '-' :: rest) := by
  apply ofBase?_of_accepts htest
  rw [FamilyTest.accepts_named_singleton]
  exact inFamily_iff.2 (Or.inr ⟨rest, rfl⟩)

theorem ofBase?_background_append
    (value : Text) :
    ofBase? ("bg-".toList ++ value) = ofBackground? value := by
  have htest : backgroundTest ∈ familyTests := by simp [mem_familyTests_iff]
  exact ofBase?_of_leading htest value

theorem ofBase?_text_append
    (raw : Text) :
    ofBase? ("text-".toList ++ raw) = ofText? raw := by
  have htest : textTest ∈ familyTests := by simp [mem_familyTests_iff]
  exact ofBase?_of_leading htest raw

theorem ofBase?_border_append
    (rest : Text) :
    ofBase? ("border-".toList ++ rest) =
      if Text.startsWith ("border-".toList ++ rest) "border-spacing".toList ||
          "border-".toList ++ rest == "border-collapse".toList ||
          "border-".toList ++ rest == "border-separate".toList then none
      else some (ofBorderRest rest) := by
  have htest : borderTest ∈ familyTests := by simp [mem_familyTests_iff]
  have hborder : ofBase? ("border-".toList ++ rest) = ofBorder? ("border-".toList ++ rest) :=
    ofBase?_of_named htest rest
  have hdrop : Text.dropLead? ("border-".toList ++ rest) "border-".toList = some rest :=
    Text.dropLead?_eq_some_iff.2 rfl
  rw [hborder, ofBorder?, hdrop]

theorem ofBase?_ring_append
    (rest : Text) :
    ofBase? ("ring-".toList ++ rest) = some (ofRing ("ring-".toList ++ rest)) := by
  have htest : ringTest ∈ familyTests := by simp [mem_familyTests_iff]
  exact ofBase?_of_named htest rest

theorem ofBase?_outline_append
    (rest : Text) :
    ofBase? ("outline-".toList ++ rest) = some (ofOutline ("outline-".toList ++ rest)) := by
  have htest : outlineTest ∈ familyTests := by simp [mem_familyTests_iff]
  exact ofBase?_of_named htest rest

end ConflictGroup

end ClassLint
