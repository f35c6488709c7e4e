import ClassLint.Text.Basic

/-!
# Diagnostics

What the linter can find wrong with a token, how it words each finding, and how severe
a finding is.  A project may raise the severity of a kind of finding to an error.
-/

namespace ClassLint

/-- How severe a diagnostic is. -/
inductive Severity where
  | warning | error
  deriving DecidableEq, Repr

/-- The written name of the severity. -/
def Severity.name : Severity → Text
  | warning => "warning".toList
  | error => "error".toList

/-- The kinds of diagnostics, in the order in which they are listed. -/
inductive DiagnosticKind where
  | unknownClass
  | unsupportedVariant
  | conflictingStyles
  | duplicateStyle
  | invalidColorVariableUsage
  | invalidThemeTokenName
  | invalidCssPropertyName
  | requiresLiteral
  deriving DecidableEq, Repr

namespace DiagnosticKind

/-- Every kind once, in order. -/
def all : List DiagnosticKind :=
  [unknownClass, unsupportedVariant, conflictingStyles, duplicateStyle,
   invalidColorVariableUsage, invalidThemeTokenName, invalidCssPropertyName, requiresLiteral]

theorem mem_all
    (kind : DiagnosticKind) :
    kind ∈ all := by
  cases kind <;> decide

/-- The written name of the kind. -/
def name : DiagnosticKind → Text
  | unknownClass => "unknown-class".toList
  | unsupportedVariant => "unsupported-variant".toList
  | conflictingStyles => "conflicting-styles".toList
  | duplicateStyle => "duplicate-style".toList
  | invalidColorVariableUsage => "invalid-color-variable-usage".toList
  | invalidThemeTokenName => "invalid-theme-token-name".toList
  | invalidCssPropertyName => "invalid-css-property-name".toList
  | requiresLiteral => "requires-literal".toList

/-- The kind with the given name. -/
def ofName? (s : Text) : Option DiagnosticKind :=
  all.find? fun kind => kind.name == s

/-- The severity that a kind has unless the project raises it. -/
def defaultSeverity : DiagnosticKind → Severity
  | requiresLiteral => .error
  | _ => .warning

end DiagnosticKind

/-- What is wrong with a token. -/
inductive Finding where
  /-- The base utility of the token does not exist. -/
  | unknownClass (token base : Text)
  /-- The engine does not understand a variant of the token. -/
  | unsupportedVariant (token variant : Text)
  /-- Two utilities set the same property in one scope. -/
  | conflictingStyles (previous current scope : Text)
  /-- A utility is repeated in one scope. -/
  | duplicateStyle (token scope : Text)
  /-- A color utility refers to a custom property that is not named as a color. -/
  | misnamedColor (token property : Text)
  /-- A custom property's name does not fit its use; the note says why. -/
  | misnamedToken (token note : Text)
  /-- The property that the token declares has no valid name. -/
  | invalidProperty (token property : Text)
  /-- Classes were not given as a string literal. -/
  | requiresLiteral (token : Text)
  deriving DecidableEq, Repr

namespace Finding

/-- The kind of diagnostic that reports the finding. -/
def kind : Finding → DiagnosticKind
  | unknownClass _ _ => .unknownClass
  | unsupportedVariant _ _ => .unsupportedVariant
  | conflictingStyles _ _ _ => .conflictingStyles
  | duplicateStyle _ _ => .duplicateStyle
  | misnamedColor _ _ => .invalidColorVariableUsage
  | misnamedToken _ _ => .invalidThemeTokenName
  | invalidProperty _ _ => .invalidCssPropertyName
  | requiresLiteral _ => .requiresLiteral

/-- The token that the finding is about. -/
def token : Finding → Text
  | unknownClass token _ => token
  | unsupportedVariant token _ => token
  | conflictingStyles _ current _ => current
  | duplicateStyle token _ => token
  | misnamedColor token _ => token
  | misnamedToken token _ => token
  | invalidProperty token _ => token
  | requiresLiteral token => token

/-- How a scope is called in a message. -/
def scopeLabel (scope : Text) : Text :=
  if scope.isEmpty then "scope".toList
  else "'".toList ++ scope ++ "' scope".toList

/-- What the user is told. -/
def message : Finding → Text
  | unknownClass _ base => "Unknown Tailwind class '".toList ++ base ++ "'".toList
  | unsupportedVariant _ variant =>
      "Unsupported Tailwind variant '".toList ++ variant ++ ":'".toList
  | conflictingStyles previous current scope =>
      "Conflicting styles '".toList ++ previous ++ "' and '".toList ++ current ++
        "' in the same ".toList ++ scopeLabel scope ++ ".".toList
  | duplicateStyle token scope =>
      "Duplicate style '".toList ++ token ++ "' in the same ".toList ++ scopeLabel scope ++
        ".".toList
  | misnamedColor token property =>
      "Color utility '".toList ++ token ++ "' references '".toList ++ property ++
        "'; color variables must be named --color-* or --tw-color-*.".toList
  | misnamedToken _ note => note
  | invalidProperty _ property => "Invalid CSS property name '".toList ++ property ++ "'".toList
  | requiresLiteral _ => "Tailwind classes must be given as a string literal".toList

end Finding

/-- A finding with its severity. -/
structure Diagnostic where
  severity : Severity
  finding : Finding
  deriving DecidableEq, Repr

namespace Diagnostic

/-- The diagnostic of a finding with the severity of its kind. -/
def ofFinding (finding : Finding) : Diagnostic :=
  ⟨finding.kind.defaultSeverity, finding⟩

/-- The kind of the finding. -/
def kind (d : Diagnostic) : DiagnosticKind :=
  d.finding.kind

/-- The token that the diagnostic is about. -/
def token (d : Diagnostic) : Text :=
  d.finding.token

/-- What the user is told. -/
def message (d : Diagnostic) : Text :=
  d.finding.message

/-- The same finding as an error. -/
def escalate (d : Diagnostic) : Diagnostic :=
  { d with severity := .error }

/-- The same finding as an error if its kind is among the given ones. -/
def escalateIn (kinds : List DiagnosticKind) (d : Diagnostic) : Diagnostic :=
  if kinds.contains d.kind then d.escalate else d

/-- Whether the diagnostic is an error. -/
def isError (d : Diagnostic) : Bool :=
  d.severity == .error

/-- The severity and the message on one line. -/
def toText (d : Diagnostic) : Text :=
  d.severity.name ++ ": ".toList ++ d.message

end Diagnostic

end ClassLint
