import ClassLint.Utility.ConflictGroup

/-!
# Conflicting and repeated utilities

Every class with a conflict group is compared with the first class of the same scope
and the same group: if the two bases differ it is a conflict, if they are equal it is a
repeat.  The first class stays the one to compare with, so a third class is reported
against the first and not against the second.

The classes that a list is compared with may also come from an earlier list.
-/

namespace ClassLint

/-- Classes with the same key override each other. -/
structure ConflictKey where
  scope : Text
  group : ConflictGroup
  deriving DecidableEq, Repr

/-- The key of a class together with its base, if the base has a conflict group. -/
def ConflictKey.ofClass? (cls : Text) : Option (ConflictKey × Text) :=
  let parsed := ScopedClass.ofText cls
  (ConflictGroup.ofBase? parsed.base).map fun group =>
    (⟨parsed.scope, group⟩, parsed.base)

theorem ConflictKey.ofClass?_eq_some_iff
    {cls base : Text} {key : ConflictKey} :
    ofClass? cls = some (key, base) ↔
      (ScopedClass.ofText cls).scope = key.scope ∧ (ScopedClass.ofText cls).base = base ∧
        ConflictGroup.ofBase? base = some key.group := by
  obtain ⟨scope, group⟩ := key
  simp only [ofClass?, Option.map_eq_some_iff, Prod.mk.injEq, mk.injEq]
  constructor
  · rintro ⟨other, hgroup, ⟨hscope, rfl⟩, rfl⟩
    exact ⟨hscope, rfl, hgroup⟩
  · rintro ⟨hscope, rfl, hgroup⟩
    exact ⟨group, hgroup, ⟨hscope, rfl⟩, rfl⟩

theorem ConflictKey.ofClass?_eq_none_iff
    {cls : Text} :
    ofClass? cls = none ↔ ConflictGroup.ofBase? (ScopedClass.ofText cls).base = none := by
  simp [ofClass?]

/-- Two different utilities that set the same property in the same scope. -/
structure StyleConflict where
  previous : Text
  current : Text
  scope : Text
  deriving DecidableEq, Repr

/-- A utility that is repeated within one scope. -/
structure DuplicateStyle where
  token : Text
  scope : Text
  deriving DecidableEq, Repr

/-- The first base seen for each key. -/
structure FirstSeen where
  entries : List (ConflictKey × Text)
  deriving Repr

namespace FirstSeen

/-- Nothing has been seen. -/
def empty : FirstSeen := ⟨[]⟩

/-- The first base seen for the key. -/
def base? (seen : FirstSeen) (key : ConflictKey) : Option Text :=
  seen.entries.lookup key

/-- Notes a base for its key, unless the key has one already. -/
def note (seen : FirstSeen) (key : ConflictKey) (base : Text) : FirstSeen :=
  match seen.base? key with
  | some _ => seen
  | none => ⟨seen.entries ++ [(key, base)]⟩

/-- Notes every class that has a key. -/
def noteAll (seen : FirstSeen) : List Text → FirstSeen
  | [] => seen
  | cls :: classes =>
      match ConflictKey.ofClass? cls with
      | some (key, base) => (seen.note key base).noteAll classes
      | none => seen.noteAll classes

/-- The conflict of a base with the first base of its key. -/
def conflict? (seen : FirstSeen) (key : ConflictKey) (base : Text) : Option StyleConflict :=
  match seen.base? key with
  | some first => if first = base then none else some ⟨first, base, key.scope⟩
  | none => none

/-- The repetition of the first base of a key. -/
def duplicate? (seen : FirstSeen) (key : ConflictKey) (base : Text) : Option DuplicateStyle :=
  match seen.base? key with
  | some first => if first = base then some ⟨base, key.scope⟩ else none
  | none => none

/-- The conflicts within a list of classes, after what has been seen. -/
def conflicts (seen : FirstSeen) : List Text → List StyleConflict
  | [] => []
  | cls :: classes =>
      match ConflictKey.ofClass? cls with
      | some (key, base) =>
          (seen.conflict? key base).toList ++ (seen.note key base).conflicts classes
      | none => seen.conflicts classes

/-- The repetitions within a list of classes, after what has been seen. -/
def duplicates (seen : FirstSeen) : List Text → List DuplicateStyle
  | [] => []
  | cls :: classes =>
      match ConflictKey.ofClass? cls with
      | some (key, base) =>
          (seen.duplicate? key base).toList ++ (seen.note key base).duplicates classes
      | none => seen.duplicates classes

end FirstSeen

/-- Each class that differs from the first class of its key, with that first class. -/
def detectConflicts (classes : List Text) : List StyleConflict :=
  FirstSeen.empty.conflicts classes

/-- Each class that repeats the first class of its key. -/
def detectDuplicates (classes : List Text) : List DuplicateStyle :=
  FirstSeen.empty.duplicates classes

/-- Each incoming class that overrides what an earlier list set first for its key. -/
def overridingConflicts (previous incoming : List Text) : List StyleConflict :=
  let seen := FirstSeen.empty.noteAll previous
  incoming.filterMap fun cls =>
    (ConflictKey.ofClass? cls).bind fun (key, base) => seen.conflict? key base

/-- Whether some incoming class overrides what an earlier list set first for its key. -/
def overridesPrevious (previous incoming : List Text) : Bool :=
  let seen := FirstSeen.empty.noteAll previous
  incoming.any fun cls =>
    match ConflictKey.ofClass? cls with
    | some (key, base) => (seen.conflict? key base).isSome
    | none => false

end ClassLint
