import ClassLint.Surroundings

/-!
# Finding the configuration

The configuration of a run is in the file that the user names, else in the usual file of the base
directory, and nothing is configured where there is no such file.
-/

namespace ClassLint

namespace Config

/-- The configuration in the text of the file at a path. -/
def parse (s : Surroundings) (path text : Text) : Except ConfigError Config :=
  match s.document? text with
  | none => .error (.malformed path)
  | some config =>
      match config.theme.entries.find? fun entry => !isVariableName entry.1 with
      | some (name, _) => .error (.invalidVariable name)
      | none => .ok config

/-- The configuration in the file at a path. -/
def load (s : Surroundings) (path : Text) : Except ConfigError Config :=
  match s.readText path with
  | .error reason => .error (.unreadable path reason)
  | .ok text => parse s path text

/-- The name of the file that holds the configuration unless another one is given. -/
def fileName : Text := "tailcheck.toml".toList

/-- The configuration in the given file, else in the usual file of the base directory if there is
one, else the default. -/
def discover (s : Surroundings) (given : Option Text) (base : Text) : Except ConfigError Config :=
  match given with
  | some path => load s path
  | none =>
      let path := base.joinPath fileName
      if s.isFile path then load s path else .ok .default

end Config

end ClassLint
