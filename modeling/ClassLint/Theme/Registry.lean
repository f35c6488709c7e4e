import ClassLint.Text.Blank
import ClassLint.Theme.TokenKind

/-!
# Theme variables and aliases

A registry holds the variables of a theme, each with a value for light and possibly one
for dark appearance, and the aliases, names that stand for several utilities.

Both are tables sorted by name, code point by code point.  Aliases are replaced in one
pass over the words of a class string: what an alias brings in is not looked up again.
-/

namespace ClassLint

/-- A table with at most one entry per name, sorted by name. -/
structure NameTable (α : Type) where
  entries : List (Text × α)
  deriving DecidableEq, Repr

namespace NameTable

variable {α : Type}

/-- The table without entries. -/
def empty : NameTable α := ⟨[]⟩

/-- Whether the table has no entries. -/
def isEmpty (t : NameTable α) : Bool :=
  t.entries.isEmpty

/-- The entry of a name. -/
def get? (t : NameTable α) (name : Text) : Option α :=
  t.entries.lookup name

/-- Puts an entry at its place among sorted entries; an entry of the same name is replaced. -/
def insertEntry (name : Text) (item : α) : List (Text × α) → List (Text × α)
  | [] => [(name, item)]
  | (other, present) :: rest =>
      if name = other then (name, item) :: rest
      else if name < other then (name, item) :: (other, present) :: rest
      else (other, present) :: insertEntry name item rest

/-- The table with one more entry; an entry of the same name is replaced. -/
def insert (t : NameTable α) (name : Text) (item : α) : NameTable α :=
  ⟨insertEntry name item t.entries⟩

/-- The table of some entries; of several entries for one name the last one counts. -/
def ofList (entries : List (Text × α)) : NameTable α :=
  entries.foldl (fun t (name, item) => t.insert name item) empty

theorem lookup_insertEntry
    (name other : Text) (item : α) (entries : List (Text × α)) :
    (insertEntry name item entries).lookup other =
      if other = name then some item else entries.lookup other := by
  induction entries with
  | nil =>
      by_cases h : other = name
      · simp [insertEntry, h]
      · have h' : (other == name) = false := by simpa using h
        simp [insertEntry, List.lookup_cons, h, h']
  | cons e rest ih =>
      obtain ⟨present, old⟩ := e
      simp only [insertEntry]
      by_cases hn : name = present
      · subst hn
        by_cases h : other = name
        · simp [h]
        · have h' : (other == name) = false := by simpa using h
          simp [List.lookup_cons, h, h']
      · rw [if_neg hn]
        split
        · by_cases h : other = name
          · simp [h]
          · have h' : (other == name) = false := by simpa using h
            simp [List.lookup_cons, h, h']
        · by_cases hp : other = present
          · have h : ¬ present = name := fun e => hn e.symm
            simp [hp, h]
          · have hp' : (other == present) = false := by simpa using hp
            simp [List.lookup_cons, hp', ih]

theorem get?_insert
    (t : NameTable α) (name other : Text) (item : α) :
    (t.insert name item).get? other =
      if other = name then some item else t.get? other :=
  lookup_insertEntry name other item t.entries

end NameTable

/-- The appearance for which variables are read. -/
inductive Appearance where
  | light | dark
  deriving DecidableEq, Repr

/-- A variable of the theme. -/
structure ThemeVariable where
  kind : TokenKind
  light : Text
  dark : Option Text
  deriving DecidableEq, Repr

/-- The value for an appearance; without a dark value the light one holds for both. -/
def ThemeVariable.value (v : ThemeVariable) : Appearance → Text
  | .light => v.light
  | .dark => v.dark.getD v.light

/-- The variables and aliases that a class string is read with. -/
structure Registry where
  theme : NameTable ThemeVariable
  aliases : NameTable Text
  deriving Repr

namespace Registry

/-- The registry without variables and aliases. -/
def empty : Registry := ⟨.empty, .empty⟩

/-- Whether there are neither variables nor aliases. -/
def isEmpty (r : Registry) : Bool :=
  r.theme.isEmpty && r.aliases.isEmpty

/-- Adds or replaces a variable. -/
def insertVariable (r : Registry) (name : Text) (v : ThemeVariable) : Registry :=
  { r with theme := r.theme.insert name v }

/-- Adds or replaces an alias. -/
def insertAlias (r : Registry) (name expansion : Text) : Registry :=
  { r with aliases := r.aliases.insert name expansion }

/-- The value of a variable for an appearance. -/
def value? (r : Registry) (name : Text) (appearance : Appearance) : Option Text :=
  (r.theme.get? name).map fun v => v.value appearance

/-- The words that a token stands for: those of its alias, or itself. -/
def expandToken (r : Registry) (token : Text) : List Text :=
  match r.aliases.get? token with
  | some expansion => expansion.words
  | none => [token]

/-- The words of a class string with each alias replaced by what it stands for. -/
def expandAliases (r : Registry) (classes : Text) : List Text :=
  classes.words.flatMap r.expandToken

theorem expandAliases_append_cons
    (r : Registry) {c : Char}
    (h : isBlank c = true)
    (s t : Text) :
    r.expandAliases (s ++ c :: t) = r.expandAliases s ++ r.expandAliases t := by
  unfold expandAliases
  rw [Text.words_append_cons h, List.flatMap_append]

/-- What an alias brings in are words, and so is a token that stands for itself. -/
theorem words_of_mem_expandAliases
    {r : Registry} {classes token : Text}
    (h : token ∈ r.expandAliases classes) :
    token.words = [token] := by
  obtain ⟨word, hword, htoken⟩ := List.mem_flatMap.1 h
  rw [expandToken] at htoken
  split at htoken
  · exact Text.words_of_mem_words htoken
  · obtain rfl := List.mem_singleton.1 htoken
    exact Text.words_of_mem_words hword

theorem expandAliases_of_get?
    {r : Registry} {name expansion : Text}
    (halias : r.aliases.get? name = some expansion)
    (hname : name.words = [name]) :
    r.expandAliases name = expansion.words := by
  rw [expandAliases, hname, List.flatMap_singleton, expandToken, halias]

/-- Without aliases every word stands for itself. -/
theorem expandAliases_of_no_aliases
    (theme : NameTable ThemeVariable) (classes : Text) :
    (Registry.mk theme .empty).expandAliases classes = classes.words := by
  have hself : (Registry.mk theme .empty).expandToken = fun token => [token] := rfl
  rw [expandAliases, hself, List.flatMap_singleton']

end Registry

end ClassLint
