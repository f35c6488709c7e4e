import ClassLint.Text.Basic

/-!
# The command line

The arguments of a run are the name of a command followed by items: values, switches, and
flags that take the next argument as their value, whatever it looks like.
-/

namespace ClassLint

/-- What a check is asked to do. -/
structure CheckOptions where
  inputs : List Text
  ignore : List Text
  config : Option Text
  root : Option Text
  json : Bool
  denyWarnings : Bool
  deriving DecidableEq, Repr

/-- What a resolution of colors is asked to do. -/
structure ResolveOptions where
  utilities : List Text
  config : Option Text
  dark : Bool
  deriving DecidableEq, Repr

/-- What a run is asked to do. -/
inductive Command where
  | check (options : CheckOptions)
  | resolve (options : ResolveOptions)
  | help
  deriving DecidableEq, Repr

/-- Why the arguments make no command. -/
inductive UsageError where
  | unknownCommand (name : Text)
  | missingValue (command flag : Text)
  | noPatterns
  | noUtilities
  deriving DecidableEq, Repr

/-- What the user is told. -/
def UsageError.message : UsageError → Text
  | unknownCommand name => "unknown command: ".toList ++ name
  | missingValue command flag => command ++ " requires a value for ".toList ++ flag
  | noPatterns => "check requires at least one glob pattern".toList
  | noUtilities => "resolve requires at least one color utility".toList

/-- A flag of a check that takes a value. -/
inductive CheckFlag where
  | config | ignore | root
  deriving DecidableEq, Repr

namespace CheckFlag

/-- The flag with the given spelling. -/
def ofText? (s : Text) : Option CheckFlag :=
  if s == "--config".toList || s == "-c".toList then some config
  else if s == "--ignore".toList || s == "-I".toList then some ignore
  else if s == "--root".toList then some root
  else none

/-- The full spelling of the flag. -/
def name : CheckFlag → Text
  | config => "--config".toList
  | ignore => "--ignore".toList
  | root => "--root".toList

end CheckFlag

/-- A switch of a check. -/
inductive CheckSwitch where
  | json | denyWarnings
  deriving DecidableEq, Repr

/-- The switch with the given spelling. -/
def CheckSwitch.ofText? (s : Text) : Option CheckSwitch :=
  if s == "--json".toList then some json
  else if s == "--deny-warnings".toList || s == "-D".toList then some denyWarnings
  else none

namespace CheckOptions

/-- The options before any argument. -/
def initial : CheckOptions := ⟨[], [], none, none, false, false⟩

/-- The options with a value for a flag; the last value of a flag holds, and exclusions add up. -/
def withValue (options : CheckOptions) (value : Text) : CheckFlag → CheckOptions
  | .config => { options with config := some value }
  | .ignore => { options with ignore := options.ignore ++ [value] }
  | .root => { options with root := some value }

/-- The options with a switch turned on. -/
def withSwitch (options : CheckOptions) : CheckSwitch → CheckOptions
  | .json => { options with json := true }
  | .denyWarnings => { options with denyWarnings := true }

/-- The options with one more pattern. -/
def withInput (options : CheckOptions) (pattern : Text) : CheckOptions :=
  { options with inputs := options.inputs ++ [pattern] }

/-- The options after the remaining arguments. -/
def read (options : CheckOptions) : List Text → Except UsageError CheckOptions
  | [] => .ok options
  | arg :: rest =>
      match CheckFlag.ofText? arg, CheckSwitch.ofText? arg, rest with
      | some flag, _, value :: rest => (options.withValue value flag).read rest
      | some flag, _, [] => .error (.missingValue "check".toList flag.name)
      | none, some switch, rest => (options.withSwitch switch).read rest
      | none, none, rest => (options.withInput arg).read rest

end CheckOptions

namespace ResolveOptions

/-- The options before any argument. -/
def initial : ResolveOptions := ⟨[], none, false⟩

/-- Whether the argument asks for a configuration file. -/
def isConfigFlag (s : Text) : Bool :=
  s == "--config".toList || s == "-c".toList

/-- The options after the remaining arguments. -/
def read (options : ResolveOptions) : List Text → Except UsageError ResolveOptions
  | [] => .ok options
  | arg :: rest =>
      match isConfigFlag arg, rest with
      | true, value :: rest => read { options with config := some value } rest
      | true, [] => .error (.missingValue "resolve".toList "--config".toList)
      | false, rest =>
          if arg == "--dark".toList then read { options with dark := true } rest
          else read { options with utilities := options.utilities ++ [arg] } rest

end ResolveOptions

namespace Command

/-- The check that some arguments ask for. -/
def parseCheck (args : List Text) : Except UsageError Command :=
  match CheckOptions.initial.read args with
  | .error e => .error e
  | .ok options => if options.inputs.isEmpty then .error .noPatterns else .ok (.check options)

/-- The resolution that some arguments ask for. -/
def parseResolve (args : List Text) : Except UsageError Command :=
  match ResolveOptions.initial.read args with
  | .error e => .error e
  | .ok options =>
      if options.utilities.isEmpty then .error .noUtilities else .ok (.resolve options)

/-- Whether the name asks for help. -/
def isHelp (name : Text) : Bool :=
  name == "-h".toList || name == "--help".toList || name == "help".toList

/-- The command that some arguments ask for; without arguments it is help. -/
def parse : List Text → Except UsageError Command
  | [] => .ok .help
  | name :: args =>
      if name == "check".toList then parseCheck args
      else if name == "resolve".toList then parseResolve args
      else if isHelp name then .ok .help
      else .error (.unknownCommand name)

end Command

end ClassLint
