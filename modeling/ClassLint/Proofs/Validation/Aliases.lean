import ClassLint.Validation

/-!
# Aliases as text

Aliases are replaced before anything is checked, and what they bring in is words that no
later step looks up again.  So a class string with aliases is validated as the text that
they stand for, however the names in the table refer to each other.

**Results.**
* `expandAliases_join_expandAliases`: the expanded tokens, written out, are read back by a
  registry without aliases.
* `validate_expanded`: aliases are plain textual substitution.
-/

namespace ClassLint

namespace Registry

/-- The expanded tokens, written out, are the words of what they were written to. -/
theorem expandAliases_join_expandAliases
    (r : Registry) (theme : NameTable ThemeVariable) (classes : Text) :
    (Registry.mk theme .empty).expandAliases (Text.join [' '] (r.expandAliases classes)) =
      r.expandAliases classes := by
  rw [expandAliases_of_no_aliases]
  exact Text.words_join fun token htoken => words_of_mem_expandAliases htoken

theorem expandAliases_append_space
    (r : Registry) (left right : Text) :
    r.expandAliases (left ++ ' ' :: right) = r.expandAliases left ++ r.expandAliases right :=
  r.expandAliases_append_cons rfl left right

/-- An alias in the middle of a class string is replaced by its expansion as it is written. -/
theorem expandAliases_around
    {r : Registry} {name expansion : Text}
    (theme : NameTable ThemeVariable)
    (halias : r.aliases.get? name = some expansion)
    (hname : name.words = [name])
    (left right : Text) :
    r.expandAliases (left ++ ' ' :: (name ++ ' ' :: right)) =
      (Registry.mk theme .empty).expandAliases
        (Text.join [' '] (r.expandAliases left) ++
          ' ' :: (expansion ++ ' ' :: Text.join [' '] (r.expandAliases right))) := by
  simp only [expandAliases_append_space, expandAliases_of_get? halias hname,
    expandAliases_join_expandAliases]
  rw [expandAliases_of_no_aliases theme expansion]

end Registry

theorem validate_eq_of_expandAliases_eq
    {registry other : Registry} {classes otherClasses : Text}
    (h : registry.expandAliases classes = other.expandAliases otherClasses)
    (escalated : List DiagnosticKind) (previous : List Text) :
    validate ⟨registry, escalated, previous⟩ classes =
      validate ⟨other, escalated, previous⟩ otherClasses := by
  simp only [validate, h]

/--
**Aliases are textual substitution.**  A class string has the diagnostics of the tokens
that its aliases expand to, joined with single spaces and read without any alias.  Within
a class string an alias counts as the text of its expansion, in which no name is replaced
again, be it the alias itself or another one.  Variables have no influence.
-/
theorem validate_expanded
    (registry : Registry) (theme : NameTable ThemeVariable)
    (escalated : List DiagnosticKind) (previous : List Text) :
    (∀ classes : Text,
      validate ⟨registry, escalated, previous⟩ classes =
        validate ⟨⟨theme, .empty⟩, escalated, previous⟩
          (Text.join [' '] (registry.expandAliases classes))) ∧
    (∀ left name expansion right : Text,
      registry.aliases.get? name = some expansion →
      name.words = [name] →
      validate ⟨registry, escalated, previous⟩ (left ++ ' ' :: (name ++ ' ' :: right)) =
        validate ⟨⟨theme, .empty⟩, escalated, previous⟩
          (Text.join [' '] (registry.expandAliases left) ++
            ' ' :: (expansion ++ ' ' :: Text.join [' '] (registry.expandAliases right)))) ∧
    (∀ classes : Text,
      validate ⟨registry, escalated, previous⟩ classes =
        validate ⟨⟨theme, registry.aliases⟩, escalated, previous⟩ classes) := by
  refine ⟨?_, ?_, ?_⟩
  · intro classes
    apply validate_eq_of_expandAliases_eq
    rw [Registry.expandAliases_join_expandAliases]
  · intro left name expansion right halias hname
    apply validate_eq_of_expandAliases_eq
    exact Registry.expandAliases_around theme halias hname left right
  · intro classes
    exact validate_eq_of_expandAliases_eq rfl escalated previous

/-- An alias that names itself and another one, which names it in turn. -/
def mutualAliases : Registry :=
  (Registry.empty.insertAlias "card".toList "card btn p-4".toList).insertAlias "btn".toList
    "card".toList

/-- Neither name is replaced where the other one brings it in. -/
theorem validate_expanded_mutual :
    mutualAliases.aliases.get? "card".toList = some "card btn p-4".toList ∧
    Text.words "card".toList = ["card".toList] ∧
    validate ⟨mutualAliases, [], []⟩ "p-2 card flex".toList =
      validate ⟨.empty, [], []⟩ "p-2 card btn p-4 flex".toList := by
  have halias : mutualAliases.aliases.get? "card".toList = some "card btn p-4".toList := by
    decide
  have hname : Text.words "card".toList = ["card".toList] := by decide
  have hexpanded :=
    (validate_expanded mutualAliases .empty [] []).2.1 "p-2".toList _ _ "flex".toList halias hname
  exact ⟨halias, hname, hexpanded⟩

end ClassLint
