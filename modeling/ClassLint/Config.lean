import ClassLint.Diagnostic
import ClassLint.Files.Path
import ClassLint.Theme.Registry
import ClassLint.Theme.TokenName

/-!
# Project configuration

A project may define theme variables, aliases, and the kinds of diagnostics that it wants
to be errors.
-/

namespace ClassLint

/-- The configuration of a project. -/
structure Config where
  theme : NameTable ThemeVariable
  aliases : NameTable Text
  /-- Kinds that are reported as errors, as they are written. -/
  escalate : List DiagnosticKind
  deriving DecidableEq, Repr

namespace Config

/-- The configuration of a project that configures nothing. -/
def default : Config := ⟨.empty, .empty, []⟩

/-- The registry that class strings of the project are read with. -/
def registry (config : Config) : Registry :=
  ⟨config.theme, config.aliases⟩

/-- The kinds that are reported as errors, each once and in their own order. -/
def escalatedKinds (config : Config) : List DiagnosticKind :=
  DiagnosticKind.all.filter config.escalate.contains

/-- Whether a variable may have the name: it has to be a custom property. -/
def isVariableName (name : Text) : Bool :=
  name.startsWith "--".toList && name.isPropertyName

end Config

/-- Why there is no configuration. -/
inductive ConfigError where
  /-- The file cannot be read. -/
  | unreadable (path : Text) (reason : AccessError)
  /-- The file is no document of the expected form. -/
  | malformed (path : Text)
  /-- A variable has a name that is no custom property. -/
  | invalidVariable (name : Text)
  deriving DecidableEq, Repr

/-- What the user is told. -/
def ConfigError.message : ConfigError → Text
  | unreadable path reason =>
      "failed to read config ".toList ++ path ++ ": ".toList ++ reason.message
  | malformed path => "failed to parse config ".toList ++ path
  | invalidVariable name =>
      "invalid theme variable name '".toList ++ name ++
        "': expected a `--` custom property".toList

end ClassLint
