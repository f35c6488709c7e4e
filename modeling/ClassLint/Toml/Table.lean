import ClassLint.Toml.Value

/-!
# Tables under construction

A document builds its tables piece by piece.  A table remembers how it came about, since
that decides what may still be added to it: a header may complete a table that only its
subtables have mentioned, and a dotted key may extend a table that dotted keys have made.
-/

namespace ClassLint

namespace Toml

/-- How a table came about. -/
inductive Origin where
  /-- By its own header. -/
  | header
  /-- By the header of a table inside it. -/
  | implied
  /-- By a dotted key. -/
  | dotted
  deriving DecidableEq, Repr

/-- An entry of a table under construction. -/
inductive Node where
  | value (v : Value)
  | table (origin : Origin) (entries : List (Text × Node))
  | tables (items : List (List (Text × Node)))
  deriving Repr

/-- The entries of a table under construction. -/
abbrev Entries := List (Text × Node)

namespace Entries

/-- The entries with another node for a key that is there. -/
def replace (entries : Entries) (key : Text) (node : Node) : Entries :=
  entries.map fun (k, present) => (k, if k = key then node else present)

/-- The items with another last item. -/
def replaceLast (items : List Entries) (item : Entries) : List Entries :=
  items.dropLast ++ [item]

/-- Puts a value under a dotted key; the flag says whether the table reached so far takes values. -/
def insertValue (v : Value) : List Text → Bool → Entries → Option Entries
  | [], _, _ => none
  | [key], isOpen, entries =>
      if isOpen && (entries.lookup key).isNone then some (entries ++ [(key, .value v)]) else none
  | key :: path, _, entries =>
      match entries.lookup key with
      | none =>
          (insertValue v path true []).map fun sub => entries ++ [(key, .table .dotted sub)]
      | some (.value _) => none
      | some (.table .header _) => none
      | some (.table origin sub) =>
          (insertValue v path (origin == .dotted) sub).map fun sub =>
            replace entries key (.table origin sub)
      | some (.tables items) =>
          items.getLast?.bind fun last =>
            (insertValue v path false last).map fun last =>
              replace entries key (.tables (replaceLast items last))

/-- Changes the table at a path by a function of the last key and the table that holds it; tables
on the way that are not there are implied. -/
def updateParent (change : Text → Entries → Option Entries) : List Text → Entries → Option Entries
  | [], _ => none
  | [key], entries => change key entries
  | key :: path, entries =>
      match entries.lookup key with
      | none =>
          (updateParent change path []).map fun sub => entries ++ [(key, .table .implied sub)]
      | some (.value _) => none
      | some (.table origin sub) =>
          (updateParent change path sub).map fun sub => replace entries key (.table origin sub)
      | some (.tables items) =>
          items.getLast?.bind fun last =>
            (updateParent change path last).map fun last =>
              replace entries key (.tables (replaceLast items last))

/-- Opens the table of a header. -/
def openTable (key : Text) (entries : Entries) : Option Entries :=
  match entries.lookup key with
  | none => some (entries ++ [(key, .table .header [])])
  | some (.table .implied sub) => some (replace entries key (.table .header sub))
  | some _ => none

/-- Opens one more table in the array of tables of a header. -/
def openArrayItem (key : Text) (entries : Entries) : Option Entries :=
  match entries.lookup key with
  | none => some (entries ++ [(key, .tables [[]])])
  | some (.tables items) => some (replace entries key (.tables (items ++ [[]])))
  | some _ => none

/-- Changes the entries of an opened table. -/
def updateOpened (change : Entries → Option Entries) (key : Text) (entries : Entries) :
    Option Entries :=
  match entries.lookup key with
  | some (.table origin sub) =>
      (change sub).map fun sub => replace entries key (.table origin sub)
  | some (.tables items) =>
      items.getLast?.bind fun last =>
        (change last).map fun last => replace entries key (.tables (replaceLast items last))
  | _ => none

/-- Puts a value under a dotted key into the table that was opened last, at the given path. -/
def insertAt (opened key : List Text) (v : Value) (entries : Entries) : Option Entries :=
  if opened.isEmpty then insertValue v key true entries
  else updateParent (updateOpened (insertValue v key true)) opened entries

end Entries

mutual

/-- The finished value of a node. -/
def Node.toValue : Node → Value
  | .value v => v
  | .table _ entries => .table (entriesToValues entries)
  | .tables items => .array (itemsToValues items)

/-- The finished values of entries. -/
def entriesToValues : List (Text × Node) → List (Text × Value)
  | [] => []
  | (key, node) :: entries => (key, node.toValue) :: entriesToValues entries

/-- The finished values of an array of tables. -/
def itemsToValues : List (List (Text × Node)) → List Value
  | [] => []
  | entries :: items => .table (entriesToValues entries) :: itemsToValues items

end

end Toml

end ClassLint
