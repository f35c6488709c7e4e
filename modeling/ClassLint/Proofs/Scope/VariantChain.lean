import ClassLint.Proofs.Scope.Factorisation
import ClassLint.Utility.Conflict

/-!
# Scopes and variant chains

Scopes are compared as texts, although they stand for chains of variants.  Texts joined with
colons do not determine the texts in general, but the variants of a class are segments, which
do: a scope that comes from at least one variant is cut into its variants again.

The empty scope is the exception.  It belongs to a class without variants and also to a class
whose only variant is empty, which is one that begins with a colon and has no other.

**Results.**
* `segments_scope`: the segments of a scope are the variants it was made from.
* `variants_eq_emptyVariant_iff`: the classes whose only variant is empty.
* `scope_identifies_variants`: when two classes have the same scope, and when the same key.
-/

namespace ClassLint

/-- No variant at all on one side and nothing but an empty variant on the other. -/
def OnlyEmptyVariantApart (variants others : List Text) : Prop :=
  variants = [] ∧ others = [[]] ∨ variants = [[]] ∧ others = []

namespace ScopedClass

theorem segments_scope
    {s : Text}
    (h : (ofText s).variants ≠ []) :
    (ofText s).scope.segments = (ofText s).variants := by
  have hfactorisation := Text.isFactorisation_segments s
  have hchain : Text.IsChainFrom Depth.outermost (ofText s).variants := by
    refine Text.isChainFrom_outermost_iff.2 ⟨h, ?_, ?_⟩
    · intro part hpart
      exact hfactorisation.not_meets part (List.dropLast_subset _ hpart)
    · intro part hpart
      exact hfactorisation.settles part (List.dropLast_subset _ hpart)
  exact Text.segmentsFrom_join hchain

theorem scope_eq_nil_of_variants
    {s : Text}
    (h : (ofText s).variants = []) :
    (ofText s).scope = [] := by
  rw [scope, h]
  rfl

/-- The empty text has itself as its only segment. -/
theorem variants_of_scope_eq_nil
    {s : Text}
    (hvariants : (ofText s).variants ≠ [])
    (hscope : (ofText s).scope = []) :
    (ofText s).variants = [[]] := by
  rw [← segments_scope hvariants, hscope]
  rfl

theorem scope_eq_scope_iff
    {a b : Text} :
    (ofText a).scope = (ofText b).scope ↔
      (ofText a).variants = (ofText b).variants ∨
        OnlyEmptyVariantApart (ofText a).variants (ofText b).variants := by
  constructor
  · intro hscope
    by_cases ha : (ofText a).variants = []
    · by_cases hb : (ofText b).variants = []
      · exact Or.inl (ha.trans hb.symm)
      · have hempty := hscope.symm.trans (scope_eq_nil_of_variants ha)
        exact Or.inr (Or.inl ⟨ha, variants_of_scope_eq_nil hb hempty⟩)
    · by_cases hb : (ofText b).variants = []
      · have hempty := hscope.trans (scope_eq_nil_of_variants hb)
        exact Or.inr (Or.inr ⟨variants_of_scope_eq_nil ha hempty, hb⟩)
      · rw [← segments_scope ha, ← segments_scope hb, hscope]
        exact Or.inl rfl
  · rintro (hvariants | ⟨ha, hb⟩ | ⟨ha, hb⟩)
    · rw [scope, scope, hvariants]
    · rw [scope, scope, ha, hb]
      rfl
    · rw [scope, scope, ha, hb]
      rfl

theorem variants_eq_emptyVariant_iff
    {s : Text} :
    (ofText s).variants = [[]] ↔
      ∃ base, s = ':' :: base ∧ Depth.meets ':' Depth.outermost base = false := by
  constructor
  · intro h
    refine ⟨(ofText s).base, ?_, ?_⟩
    · have hwritten := toText_ofText s
      rw [toText, h, scope, h] at hwritten
      exact hwritten.symm
    · exact (Text.isFactorisation_segments s).not_meets _ (List.getLast_mem _)
  · rintro ⟨base, rfl, hmeets⟩
    have hsegments : Text.segments (':' :: base) = [[], base] :=
      congrArg ([] :: ·) (Text.segmentsFrom_of_not_meets hmeets)
    rw [ofText]
    simp only [hsegments]
    rfl

end ScopedClass

/-- The key of the class, if its base has a conflict group. -/
def ConflictKey.key? (cls : Text) : Option ConflictKey :=
  (ofClass? cls).map Prod.fst

theorem ConflictKey.key?_eq_some_iff
    {cls : Text} {key : ConflictKey} :
    key? cls = some key ↔
      (ScopedClass.ofText cls).scope = key.scope ∧
        ConflictGroup.ofBase? (ScopedClass.ofText cls).base = some key.group := by
  constructor
  · intro h
    obtain ⟨⟨other, base⟩, hcls, rfl⟩ := Option.map_eq_some_iff.1 h
    obtain ⟨hscope, rfl, hgroup⟩ := ofClass?_eq_some_iff.1 hcls
    exact ⟨hscope, hgroup⟩
  · rintro ⟨hscope, hgroup⟩
    have hcls := ofClass?_eq_some_iff.2 ⟨hscope, rfl, hgroup⟩
    rw [key?, hcls]
    rfl

/-- Two classes with conflict groups have one key if these and their scopes are the same. -/
theorem ConflictKey.exists_key?_iff
    {a b : Text} :
    (∃ key, key? a = some key ∧ key? b = some key) ↔
      (ScopedClass.ofText a).scope = (ScopedClass.ofText b).scope ∧
        ∃ group, ConflictGroup.ofBase? (ScopedClass.ofText a).base = some group ∧
          ConflictGroup.ofBase? (ScopedClass.ofText b).base = some group := by
  constructor
  · rintro ⟨key, ha, hb⟩
    obtain ⟨hscopeA, hgroupA⟩ := key?_eq_some_iff.1 ha
    obtain ⟨hscopeB, hgroupB⟩ := key?_eq_some_iff.1 hb
    exact ⟨hscopeA.trans hscopeB.symm, key.group, hgroupA, hgroupB⟩
  · rintro ⟨hscope, group, hgroupA, hgroupB⟩
    refine ⟨⟨(ScopedClass.ofText a).scope, group⟩, ?_, ?_⟩
    · exact key?_eq_some_iff.2 ⟨rfl, hgroupA⟩
    · exact key?_eq_some_iff.2 ⟨hscope.symm, hgroupB⟩

/--
**Scopes identify variant chains.**  Two classes have the same scope exactly when their variants
are the same, or the one has no variant and the other nothing but an empty one.  They have the
same key exactly when in addition their bases have the same conflict group.  The classes with
nothing but an empty variant are those with a single colon outside of brackets and parentheses,
at the front.
-/
theorem scope_identifies_variants
    (a b : Text) :
    ((ScopedClass.ofText a).scope = (ScopedClass.ofText b).scope ↔
      (ScopedClass.ofText a).variants = (ScopedClass.ofText b).variants ∨
        OnlyEmptyVariantApart (ScopedClass.ofText a).variants
          (ScopedClass.ofText b).variants) ∧
    ((∃ key, ConflictKey.key? a = some key ∧ ConflictKey.key? b = some key) ↔
      ((ScopedClass.ofText a).variants = (ScopedClass.ofText b).variants ∨
        OnlyEmptyVariantApart (ScopedClass.ofText a).variants
          (ScopedClass.ofText b).variants) ∧
      ∃ group, ConflictGroup.ofBase? (ScopedClass.ofText a).base = some group ∧
        ConflictGroup.ofBase? (ScopedClass.ofText b).base = some group) ∧
    ((ScopedClass.ofText a).variants = [[]] ↔
      ∃ base, a = ':' :: base ∧ Depth.meets ':' Depth.outermost base = false) := by
  refine ⟨ScopedClass.scope_eq_scope_iff, ?_, ScopedClass.variants_eq_emptyVariant_iff⟩
  rw [ConflictKey.exists_key?_iff, ScopedClass.scope_eq_scope_iff]

example : ConflictKey.key? ":p-4".toList = ConflictKey.key? "p-4".toList := by decide

end ClassLint
