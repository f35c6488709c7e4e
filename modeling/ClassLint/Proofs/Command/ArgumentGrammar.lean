import ClassLint.Command

/-!
# The grammar of arguments

What follows the name of a command is a sequence of items: values, switches, and flags with the
argument behind them as their value, whatever that looks like.  The arguments of the items are
written one behind the other, and only the order of the values, and of the values of each flag, says
something about what is asked for.

Every list of arguments comes from items, or it comes from items and a flag behind them that lacks
its value.  A reader that goes over the arguments item by item is known as soon as it is known what
it does at one item, at the end, and at a flag without a value.

**Results.**
* `ArgumentGrammar.isFlattening_or_dangles`: every list of arguments has one of the two forms.
* `ReadsItems.read_flatten`, `ReadsItems.read_dangling`: a reader by items over a whole list.
* `CheckOptions.foldl_withItem`, `ResolveOptions.foldl_withItem`: what the items add up to.
* `arguments_parsed`: both commands accept exactly the items of their grammar.
-/

namespace ClassLint

/-! ## Items -/

/-- How the flags of a command, which take a value, and its switches, which take none, are
written.  A flag has a full spelling, which messages name, and may have short ones. -/
structure ArgumentGrammar (Flag Switch : Type) where
  flagName : Flag → Text
  shortFlags : Flag → List Text
  switchSpellings : Switch → List Text

namespace ArgumentGrammar

variable {Flag Switch : Type}

/-- All spellings of a flag. -/
def flagSpellings (g : ArgumentGrammar Flag Switch) (flag : Flag) : List Text :=
  g.flagName flag :: g.shortFlags flag

/-- The argument is written like no flag and like no switch. -/
def IsPositional (g : ArgumentGrammar Flag Switch) (arg : Text) : Prop :=
  (∀ flag, arg ∉ g.flagSpellings flag) ∧ ∀ switch, arg ∉ g.switchSpellings switch

/-- An item of a command line.  The value of a flag is any argument. -/
inductive Item (g : ArgumentGrammar Flag Switch)
  | positional
      (arg : Text)
      (hplain : g.IsPositional arg)
  | switch
      (switch : Switch)
      (spelling : Text)
      (hspelling : spelling ∈ g.switchSpellings switch)
  | flag
      (flag : Flag)
      (spelling : Text)
      (hspelling : spelling ∈ g.flagSpellings flag)
      (value : Text)

namespace Item

variable {g : ArgumentGrammar Flag Switch}

/-- How an item is written. -/
def arguments : g.Item → List Text
  | positional arg _ => [arg]
  | switch _ spelling _ => [spelling]
  | flag _ spelling _ value => [spelling, value]

/-- The argument that is neither a switch nor a flag. -/
def positional? : g.Item → Option Text
  | positional arg _ => some arg
  | _ => none

/-- The value that the item gives to a flag. -/
def valueOf? [DecidableEq Flag] (wanted : Flag) : g.Item → Option Text
  | flag name _ _ value => if name = wanted then some value else none
  | _ => none

/-- Whether the item is a switch. -/
def turnsOn [DecidableEq Switch] (wanted : Switch) : g.Item → Bool
  | switch name _ _ => name = wanted
  | _ => false

end Item

variable {g : ArgumentGrammar Flag Switch}

/-- The arguments of some items. -/
def flatten (items : List g.Item) : List Text :=
  items.flatMap Item.arguments

/-- The values that are neither switches nor flags, in order. -/
def positionals (items : List g.Item) : List Text :=
  items.filterMap Item.positional?

/-- The values of a flag, in order. -/
def values [DecidableEq Flag] (flag : Flag) (items : List g.Item) : List Text :=
  items.filterMap (Item.valueOf? flag)

/-- Whether a switch occurs. -/
def occurs [DecidableEq Switch] (switch : Switch) (items : List g.Item) : Bool :=
  items.any (Item.turnsOn switch)

/-- The arguments are those of some items. -/
def IsFlattening (g : ArgumentGrammar Flag Switch) (args : List Text) : Prop :=
  ∃ items : List g.Item, args = flatten items

/-- The arguments are those of some items with a flag behind them that lacks its value. -/
def Dangles (g : ArgumentGrammar Flag Switch) (flag : Flag) (args : List Text) : Prop :=
  ∃ (items : List g.Item) (spelling : Text),
    spelling ∈ g.flagSpellings flag ∧ args = flatten items ++ [spelling]

@[simp] theorem flatten_nil :
    flatten ([] : List g.Item) = [] :=
  rfl

@[simp] theorem flatten_cons
    (item : g.Item) (items : List g.Item) :
    flatten (item :: items) = item.arguments ++ flatten items :=
  rfl

theorem positionals_cons
    (item : g.Item) (items : List g.Item) :
    positionals (item :: items) = item.positional?.toList ++ positionals items := by
  cases h : item.positional? <;> simp [positionals, h]

theorem values_cons
    [DecidableEq Flag]
    (flag : Flag) (item : g.Item) (items : List g.Item) :
    values flag (item :: items) = (item.valueOf? flag).toList ++ values flag items := by
  cases h : item.valueOf? flag <;> simp [values, h]

theorem occurs_cons
    [DecidableEq Switch]
    (switch : Switch) (item : g.Item) (items : List g.Item) :
    occurs switch (item :: items) = (item.turnsOn switch || occurs switch items) :=
  List.any_cons

/-- The last value of a flag is that of the later items, if these have any. -/
theorem getLast?_values_cons
    [DecidableEq Flag]
    (flag : Flag) (item : g.Item) (items : List g.Item) :
    (values flag (item :: items)).getLast? =
      (values flag items).getLast?.or (item.valueOf? flag) := by
  rw [values_cons, List.getLast?_append]
  cases item.valueOf? flag <;> rfl

theorem IsFlattening.cons
    {rest : List Text}
    (h : g.IsFlattening rest)
    (item : g.Item) :
    g.IsFlattening (item.arguments ++ rest) := by
  obtain ⟨items, rfl⟩ := h
  exact ⟨item :: items, rfl⟩

theorem Dangles.cons
    {flag : Flag} {rest : List Text}
    (h : g.Dangles flag rest)
    (item : g.Item) :
    g.Dangles flag (item.arguments ++ rest) := by
  obtain ⟨items, spelling, hspelling, rfl⟩ := h
  refine ⟨item :: items, spelling, hspelling, ?_⟩
  rw [flatten_cons, List.append_assoc]

/-- What holds of the rest of the arguments holds with an item in front of it. -/
theorem isFlattening_or_dangles_cons
    {rest : List Text}
    (h : g.IsFlattening rest ∨ ∃ flag, g.Dangles flag rest)
    (item : g.Item) :
    g.IsFlattening (item.arguments ++ rest) ∨
      ∃ flag, g.Dangles flag (item.arguments ++ rest) := by
  rcases h with hitems | ⟨flag, hdangles⟩
  · exact Or.inl (hitems.cons item)
  · exact Or.inr ⟨flag, hdangles.cons item⟩

/-- Every list of arguments comes from items, perhaps with a flag without a value at the end. -/
theorem isFlattening_or_dangles
    (g : ArgumentGrammar Flag Switch) :
    ∀ args : List Text, g.IsFlattening args ∨ ∃ flag, g.Dangles flag args
  | [] => Or.inl ⟨[], rfl⟩
  | arg :: rest => by
      by_cases hflag : ∃ flag, arg ∈ g.flagSpellings flag
      · obtain ⟨flag, hspelling⟩ := hflag
        cases rest with
        | nil => exact Or.inr ⟨flag, [], arg, hspelling, rfl⟩
        | cons value rest =>
            exact isFlattening_or_dangles_cons (isFlattening_or_dangles g rest)
              (.flag flag arg hspelling value)
      · by_cases hswitch : ∃ switch, arg ∈ g.switchSpellings switch
        · obtain ⟨switch, hspelling⟩ := hswitch
          exact isFlattening_or_dangles_cons (isFlattening_or_dangles g rest)
            (.switch switch arg hspelling)
        · have hplain : g.IsPositional arg :=
            ⟨fun flag h => hflag ⟨flag, h⟩, fun switch h => hswitch ⟨switch, h⟩⟩
          exact isFlattening_or_dangles_cons (isFlattening_or_dangles g rest)
            (.positional arg hplain)

end ArgumentGrammar

open ArgumentGrammar

/-! ## Readers that go item by item -/

/-- The reader takes in one item after the other, ends with what it has taken in, and refuses a
flag without a value. -/
structure ReadsItems
    {Flag Switch σ ε : Type}
    (g : ArgumentGrammar Flag Switch)
    (read : σ → List Text → Except ε σ)
    (withItem : σ → g.Item → σ)
    (missing : Flag → ε) : Prop where
  nil : ∀ s, read s [] = .ok s
  item : ∀ s item rest, read s (item.arguments ++ rest) = read (withItem s item) rest
  dangling : ∀ s flag, ∀ spelling ∈ g.flagSpellings flag, read s [spelling] = .error (missing flag)

namespace ReadsItems

variable {Flag Switch σ ε : Type} {g : ArgumentGrammar Flag Switch}
  {read : σ → List Text → Except ε σ} {withItem : σ → g.Item → σ} {missing : Flag → ε}
  (h : ReadsItems g read withItem missing)
include h

theorem read_flatten_append
    (s : σ) (items : List g.Item) (rest : List Text) :
    read s (flatten items ++ rest) = read (items.foldl withItem s) rest := by
  induction items generalizing s with
  | nil => rfl
  | cons item items ih => rw [flatten_cons, List.append_assoc, h.item, ih, List.foldl_cons]

theorem read_flatten
    (s : σ) (items : List g.Item) :
    read s (flatten items) = .ok (items.foldl withItem s) := by
  have hread := h.read_flatten_append s items []
  rwa [List.append_nil, h.nil] at hread

theorem read_dangling
    {flag : Flag} {args : List Text}
    (hargs : g.Dangles flag args)
    (s : σ) :
    read s args = .error (missing flag) := by
  obtain ⟨items, spelling, hspelling, rfl⟩ := hargs
  rw [h.read_flatten_append, h.dangling _ flag spelling hspelling]

/-- Where there is a reader, the two forms of arguments exclude each other. -/
theorem isFlattening_iff
    (s : σ) (args : List Text) :
    g.IsFlattening args ↔ ¬ ∃ flag, g.Dangles flag args := by
  constructor
  · rintro ⟨items, rfl⟩ ⟨flag, hdangles⟩
    have hread := h.read_dangling hdangles s
    rw [h.read_flatten] at hread
    cases hread
  · intro hnot
    exact (g.isFlattening_or_dangles args).resolve_right hnot

end ReadsItems

/-! ## Checks -/

/-- How the arguments of a check are written. -/
def checkGrammar : ArgumentGrammar CheckFlag CheckSwitch where
  flagName
    | .config => "--config".toList
    | .ignore => "--ignore".toList
    | .root => "--root".toList
  shortFlags
    | .config => ["-c".toList]
    | .ignore => ["-I".toList]
    | .root => []
  switchSpellings
    | .json => ["--json".toList]
    | .denyWarnings => ["--deny-warnings".toList, "-D".toList]

theorem CheckFlag.name_eq
    (flag : CheckFlag) :
    flag.name = checkGrammar.flagName flag := by
  cases flag <;> rfl

theorem CheckFlag.ofText?_eq_some_iff
    {s : Text} {flag : CheckFlag} :
    ofText? s = some flag ↔ s ∈ checkGrammar.flagSpellings flag := by
  constructor
  · intro h
    unfold ofText? at h
    simp only [Bool.or_eq_true, beq_iff_eq] at h
    split at h
    · next hs =>
        cases h
        rcases hs with rfl | rfl <;> decide
    · split at h
      · next hs =>
          cases h
          rcases hs with rfl | rfl <;> decide
      · split at h
        · next hs =>
            cases h
            subst hs
            decide
        · cases h
  · have hspellings (flag : CheckFlag) :
        ∀ s ∈ checkGrammar.flagSpellings flag, ofText? s = some flag := by
      cases flag <;> decide
    exact hspellings flag s

theorem CheckSwitch.ofText?_eq_some_iff
    {s : Text} {switch : CheckSwitch} :
    ofText? s = some switch ↔ s ∈ checkGrammar.switchSpellings switch := by
  constructor
  · intro h
    unfold ofText? at h
    simp only [Bool.or_eq_true, beq_iff_eq] at h
    split at h
    · next hs =>
        cases h
        subst hs
        decide
    · split at h
      · next hs =>
          cases h
          rcases hs with rfl | rfl <;> decide
      · cases h
  · have hspellings (switch : CheckSwitch) :
        ∀ s ∈ checkGrammar.switchSpellings switch, ofText? s = some switch := by
      cases switch <;> decide
    exact hspellings switch s

/-- No switch is written like a flag. -/
theorem CheckFlag.ofText?_of_switch
    {s : Text} {switch : CheckSwitch}
    (h : s ∈ checkGrammar.switchSpellings switch) :
    ofText? s = none := by
  have hspellings (switch : CheckSwitch) :
      ∀ s ∈ checkGrammar.switchSpellings switch, ofText? s = none := by
    cases switch <;> decide
  exact hspellings switch s h

/-- What is written like no flag and like no switch is read as neither. -/
theorem ofText?_of_isPositional
    {s : Text}
    (h : checkGrammar.IsPositional s) :
    CheckFlag.ofText? s = none ∧ CheckSwitch.ofText? s = none := by
  constructor
  · exact Option.eq_none_iff_forall_ne_some.2 fun flag hflag =>
      h.1 flag (CheckFlag.ofText?_eq_some_iff.1 hflag)
  · exact Option.eq_none_iff_forall_ne_some.2 fun switch hswitch =>
      h.2 switch (CheckSwitch.ofText?_eq_some_iff.1 hswitch)

namespace CheckOptions

/-- The options with one more item. -/
def withItem (options : CheckOptions) : checkGrammar.Item → CheckOptions
  | .positional arg _ => options.withInput arg
  | .switch switch _ _ => options.withSwitch switch
  | .flag flag _ _ value => options.withValue value flag

theorem readsItems_read :
    ReadsItems checkGrammar read withItem
      fun flag => .missingValue "check".toList (checkGrammar.flagName flag) where
  nil options := rfl
  item options item rest := by
    cases item with
    | positional arg hplain =>
        obtain ⟨hflag, hswitch⟩ := ofText?_of_isPositional hplain
        show options.read (arg :: rest) = (options.withInput arg).read rest
        rw [read.eq_def]
        simp only [hflag, hswitch]
    | switch switch spelling hspelling =>
        have hflag := CheckFlag.ofText?_of_switch hspelling
        have hswitch := CheckSwitch.ofText?_eq_some_iff.2 hspelling
        show options.read (spelling :: rest) = (options.withSwitch switch).read rest
        rw [read.eq_def]
        simp only [hflag, hswitch]
    | flag flag spelling hspelling value =>
        have hflag := CheckFlag.ofText?_eq_some_iff.2 hspelling
        show options.read (spelling :: value :: rest) = (options.withValue value flag).read rest
        rw [read.eq_def]
        simp only [hflag]
  dangling options flag spelling hspelling := by
    have hflag := CheckFlag.ofText?_eq_some_iff.2 hspelling
    rw [read.eq_def]
    simp only [hflag, CheckFlag.name_eq]

/-- What an item changes. -/
theorem withItem_eq
    (options : CheckOptions) (item : checkGrammar.Item) :
    options.withItem item =
      { inputs := options.inputs ++ item.positional?.toList
        ignore := options.ignore ++ (item.valueOf? .ignore).toList
        config := (item.valueOf? .config).or options.config
        root := (item.valueOf? .root).or options.root
        json := options.json || item.turnsOn .json
        denyWarnings := options.denyWarnings || item.turnsOn .denyWarnings } := by
  cases item with
  | positional arg hplain =>
      simp [withItem, withInput, Item.positional?, Item.valueOf?, Item.turnsOn]
  | switch switch spelling hspelling =>
      cases switch <;> simp [withItem, withSwitch, Item.positional?, Item.valueOf?, Item.turnsOn]
  | flag flag spelling hspelling value =>
      cases flag <;> simp [withItem, withValue, Item.positional?, Item.valueOf?, Item.turnsOn]

/-- What some items change. -/
theorem foldl_withItem
    (options : CheckOptions) (items : List checkGrammar.Item) :
    items.foldl withItem options =
      { inputs := options.inputs ++ positionals items
        ignore := options.ignore ++ values .ignore items
        config := (values .config items).getLast?.or options.config
        root := (values .root items).getLast?.or options.root
        json := options.json || occurs .json items
        denyWarnings := options.denyWarnings || occurs .denyWarnings items } := by
  induction items generalizing options with
  | nil => simp [positionals, values, occurs]
  | cons item items ih =>
      rw [List.foldl_cons, ih, withItem_eq]
      simp only [positionals_cons, occurs_cons, getLast?_values_cons, values_cons CheckFlag.ignore,
        List.append_assoc, Option.or_assoc, Bool.or_assoc]

/-- What some items ask for. -/
def ofItems (items : List checkGrammar.Item) : CheckOptions where
  inputs := positionals items
  ignore := values .ignore items
  config := (values .config items).getLast?
  root := (values .root items).getLast?
  json := occurs .json items
  denyWarnings := occurs .denyWarnings items

theorem read_flatten
    (items : List checkGrammar.Item) :
    initial.read (flatten items) = .ok (ofItems items) := by
  rw [readsItems_read.read_flatten, foldl_withItem]
  simp [initial, ofItems]

end CheckOptions

/-! ## Resolutions -/

/-- The flag of a resolution, which takes a value. -/
inductive ResolveFlag where
  | config
  deriving DecidableEq, Repr

/-- The switch of a resolution. -/
inductive ResolveSwitch where
  | dark
  deriving DecidableEq, Repr

/-- How the arguments of a resolution are written. -/
def resolveGrammar : ArgumentGrammar ResolveFlag ResolveSwitch where
  flagName
    | .config => "--config".toList
  shortFlags
    | .config => ["-c".toList]
  switchSpellings
    | .dark => ["--dark".toList]

namespace ResolveOptions

theorem isConfigFlag_iff
    {s : Text} :
    isConfigFlag s = true ↔ s ∈ resolveGrammar.flagSpellings .config := by
  rw [isConfigFlag, Bool.or_eq_true, beq_iff_eq, beq_iff_eq]
  show _ ↔ s ∈ ["--config".toList, "-c".toList]
  rw [List.mem_cons, List.mem_singleton]

theorem mem_dark_iff
    {s : Text} :
    s ∈ resolveGrammar.switchSpellings .dark ↔ s = "--dark".toList :=
  List.mem_singleton

/-- The options with one more item. -/
def withItem (options : ResolveOptions) : resolveGrammar.Item → ResolveOptions
  | .positional arg _ => { options with utilities := options.utilities ++ [arg] }
  | .switch .dark _ _ => { options with dark := true }
  | .flag .config _ _ value => { options with config := some value }

theorem readsItems_read :
    ReadsItems resolveGrammar read withItem
      fun flag => .missingValue "resolve".toList (resolveGrammar.flagName flag) where
  nil options := rfl
  item options item rest := by
    cases item with
    | positional arg hplain =>
        have hflag : isConfigFlag arg = false :=
          Bool.eq_false_iff.2 fun h => hplain.1 .config (isConfigFlag_iff.1 h)
        have hswitch : ¬ (arg == "--dark".toList) = true := fun h =>
          hplain.2 .dark (mem_dark_iff.2 (beq_iff_eq.1 h))
        show options.read (arg :: rest) =
          read { options with utilities := options.utilities ++ [arg] } rest
        rw [read.eq_def]
        simp only [hflag, if_neg hswitch]
    | switch switch spelling hspelling =>
        cases switch
        obtain rfl := mem_dark_iff.1 hspelling
        have hflag : isConfigFlag "--dark".toList = false := by decide
        show options.read ("--dark".toList :: rest) = read { options with dark := true } rest
        rw [read.eq_def]
        simp only [hflag, beq_self_eq_true, if_true]
    | flag flag spelling hspelling value =>
        cases flag
        have hflag := isConfigFlag_iff.2 hspelling
        show options.read (spelling :: value :: rest) =
          read { options with config := some value } rest
        rw [read.eq_def]
        simp only [hflag]
  dangling options flag spelling hspelling := by
    cases flag
    have hflag := isConfigFlag_iff.2 hspelling
    rw [read.eq_def]
    simp only [hflag]
    rfl

/-- What an item changes. -/
theorem withItem_eq
    (options : ResolveOptions) (item : resolveGrammar.Item) :
    options.withItem item =
      { utilities := options.utilities ++ item.positional?.toList
        config := (item.valueOf? .config).or options.config
        dark := options.dark || item.turnsOn .dark } := by
  cases item with
  | positional arg hplain =>
      simp [withItem, Item.positional?, Item.valueOf?, Item.turnsOn]
  | switch switch spelling hspelling =>
      cases switch
      simp [withItem, Item.positional?, Item.valueOf?, Item.turnsOn]
  | flag flag spelling hspelling value =>
      cases flag
      simp [withItem, Item.positional?, Item.valueOf?, Item.turnsOn]

/-- What some items change. -/
theorem foldl_withItem
    (options : ResolveOptions) (items : List resolveGrammar.Item) :
    items.foldl withItem options =
      { utilities := options.utilities ++ positionals items
        config := (values .config items).getLast?.or options.config
        dark := options.dark || occurs .dark items } := by
  induction items generalizing options with
  | nil => simp [positionals, values, occurs]
  | cons item items ih =>
      rw [List.foldl_cons, ih, withItem_eq]
      simp only [positionals_cons, occurs_cons, getLast?_values_cons, List.append_assoc,
        Option.or_assoc, Bool.or_assoc]

/-- What some items ask for. -/
def ofItems (items : List resolveGrammar.Item) : ResolveOptions where
  utilities := positionals items
  config := (values .config items).getLast?
  dark := occurs .dark items

theorem read_flatten
    (items : List resolveGrammar.Item) :
    initial.read (flatten items) = .ok (ofItems items) := by
  rw [readsItems_read.read_flatten, foldl_withItem]
  simp [initial, ofItems]

end ResolveOptions

/-! ## Commands -/

/-- A command is given exactly by items of the grammar with at least one value among them.  Without
a value, and with a flag that lacks its own, the user is told what is missing; a flag that lacks its
value counts first. -/
structure ParsesGrammar
    {Flag Switch : Type}
    (g : ArgumentGrammar Flag Switch)
    (name : Text)
    (command : List g.Item → Command)
    (withoutPositional : Text) : Prop where
  accepted : ∀ items : List g.Item, positionals items ≠ [] →
    Command.parse (name :: flatten items) = .ok (command items)
  empty : ∀ items : List g.Item, positionals items = [] →
    (Command.parse (name :: flatten items)).mapError UsageError.message =
      .error withoutPositional
  dangling : ∀ flag args, g.Dangles flag args →
    (Command.parse (name :: args)).mapError UsageError.message =
      .error (name ++ " requires a value for ".toList ++ g.flagName flag)
  exhaustive : ∀ args, g.IsFlattening args ↔ ¬ ∃ flag, g.Dangles flag args

theorem parse_check
    (args : List Text) :
    Command.parse ("check".toList :: args) = Command.parseCheck args :=
  rfl

theorem parse_resolve
    (args : List Text) :
    Command.parse ("resolve".toList :: args) = Command.parseResolve args :=
  rfl

theorem parsesGrammar_check :
    ParsesGrammar checkGrammar "check".toList
      (fun items => .check (CheckOptions.ofItems items))
      "check requires at least one glob pattern".toList where
  accepted items hitems := by
    have hinputs : (CheckOptions.ofItems items).inputs.isEmpty = false := by
      simpa [CheckOptions.ofItems] using hitems
    rw [parse_check, Command.parseCheck, CheckOptions.read_flatten]
    simp only [hinputs, Bool.false_eq_true, if_false]
  empty items hitems := by
    have hinputs : (CheckOptions.ofItems items).inputs.isEmpty = true := by
      simpa [CheckOptions.ofItems] using hitems
    rw [parse_check, Command.parseCheck, CheckOptions.read_flatten]
    simp only [hinputs, if_true]
    rfl
  dangling flag args hargs := by
    rw [parse_check, Command.parseCheck, CheckOptions.readsItems_read.read_dangling hargs]
    rfl
  exhaustive := CheckOptions.readsItems_read.isFlattening_iff CheckOptions.initial

theorem parsesGrammar_resolve :
    ParsesGrammar resolveGrammar "resolve".toList
      (fun items => .resolve (ResolveOptions.ofItems items))
      "resolve requires at least one color utility".toList where
  accepted items hitems := by
    have hutilities : (ResolveOptions.ofItems items).utilities.isEmpty = false := by
      simpa [ResolveOptions.ofItems] using hitems
    rw [parse_resolve, Command.parseResolve, ResolveOptions.read_flatten]
    simp only [hutilities, Bool.false_eq_true, if_false]
  empty items hitems := by
    have hutilities : (ResolveOptions.ofItems items).utilities.isEmpty = true := by
      simpa [ResolveOptions.ofItems] using hitems
    rw [parse_resolve, Command.parseResolve, ResolveOptions.read_flatten]
    simp only [hutilities, if_true]
    rfl
  dangling flag args hargs := by
    rw [parse_resolve, Command.parseResolve, ResolveOptions.readsItems_read.read_dangling hargs]
    rfl
  exhaustive := ResolveOptions.readsItems_read.isFlattening_iff ResolveOptions.initial

/--
**Arguments are read by items.**  A check is asked for by exactly the items of its grammar with at
least one pattern among them: its patterns and exclusions are the values in order, its configuration
and its root are the last ones given, and its switches are those that occur, however all of these
are mixed and whatever the values look like.  Every other list of arguments lacks a pattern or ends
in a flag without a value, and this one is what the user is told about first.  The same holds of a
resolution of colors.
-/
theorem arguments_parsed :
    ParsesGrammar checkGrammar "check".toList
      (fun items => .check
        { inputs := positionals items
          ignore := values .ignore items
          config := (values .config items).getLast?
          root := (values .root items).getLast?
          json := occurs .json items
          denyWarnings := occurs .denyWarnings items })
      "check requires at least one glob pattern".toList ∧
    ParsesGrammar resolveGrammar "resolve".toList
      (fun items => .resolve
        { utilities := positionals items
          config := (values .config items).getLast?
          dark := occurs .dark items })
      "resolve requires at least one color utility".toList :=
  ⟨parsesGrammar_check, parsesGrammar_resolve⟩

/-- Values that look like switches and flags, a configuration that is given twice, and a flag that
lacks its value where there is no pattern either. -/
theorem arguments_parsed_flagLikeValues :
    Command.parse (Text.ofStrings ["check", "-c", "--json", "a", "-I", "-D", "--config", "b"]) =
      .ok (.check ⟨["a".toList], ["-D".toList], some "b".toList, none, false, false⟩) ∧
    (Command.parse (Text.ofStrings ["check", "--json", "-c"])).mapError UsageError.message =
      .error "check requires a value for --config".toList := by
  have hplain : checkGrammar.IsPositional "a".toList :=
    ⟨fun flag => by cases flag <;> decide, fun switch => by cases switch <;> decide⟩
  constructor
  · exact arguments_parsed.1.accepted
      [.flag .config "-c".toList (by decide) "--json".toList, .positional "a".toList hplain,
        .flag .ignore "-I".toList (by decide) "-D".toList,
        .flag .config "--config".toList (by decide) "b".toList]
      (List.cons_ne_nil "a".toList [])
  · exact arguments_parsed.1.dangling .config _
      ⟨[.switch .json "--json".toList (by decide)], "-c".toList, by decide, rfl⟩

end ClassLint
