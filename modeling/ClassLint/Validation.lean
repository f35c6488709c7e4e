import ClassLint.Diagnostic
import ClassLint.Theme.Reference
import ClassLint.Theme.Registry
import ClassLint.Utility.Catalog
import ClassLint.Utility.Conflict
import ClassLint.Utility.Variant

/-!
# Validation of class strings

A class string is cut into tokens, aliases are replaced, and each token is checked on
its own; then the tokens are compared with each other and with the classes that were
applied to the same element before.
-/

namespace ClassLint

/-- The property that a base declares, as `[property:value]` does. -/
def declaredProperty? (base : Text) : Option Text :=
  (base.between? ['['] [']']).bind fun inner =>
    (inner.cutAtFirst? ':').map fun (property, _) => property.trim

/-- The finding about the custom property that a base refers to. -/
def referenceFinding? (token base : Text) : Option Finding :=
  match base.misnamedColor? with
  | some property => some (.misnamedColor token property)
  | none =>
      (TokenKind.reference? base).bind fun (kind, property) =>
        (kind.nameIssue? property).map fun issue => .misnamedToken token issue.message

/-- The finding about the property that a base declares. -/
def declarationFinding? (token base : Text) : Option Finding :=
  (declaredProperty? base).bind fun property =>
    if property.isPropertyName then none else some (.invalidProperty token property)

/-- The findings about the base of a token. -/
def baseFindings (token base : Text) : List Finding :=
  if Catalog.isMarker base then []
  else if Catalog.isUtility base then
    (referenceFinding? token base).toList ++ (declarationFinding? token base).toList
  else [.unknownClass token base]

/-- The findings about one token. -/
def tokenFindings (token : Text) : List Finding :=
  let parsed := ScopedClass.ofText token
  parsed.unsupportedVariants.map (Finding.unsupportedVariant token) ++
    baseFindings token parsed.base

/-- The finding that reports a conflict. -/
def StyleConflict.toFinding (c : StyleConflict) : Finding :=
  .conflictingStyles c.previous c.current c.scope

/-- The finding that reports a repeated utility. -/
def DuplicateStyle.toFinding (d : DuplicateStyle) : Finding :=
  .duplicateStyle d.token d.scope

/-- The findings about tokens that follow the tokens of earlier calls. -/
def findings (previous tokens : List Text) : List Finding :=
  tokens.flatMap tokenFindings ++
    (detectConflicts tokens).map StyleConflict.toFinding ++
    (detectDuplicates tokens).map DuplicateStyle.toFinding ++
    (overridingConflicts previous tokens).map StyleConflict.toFinding

/-- What a validation reads besides the class string. -/
structure ValidationContext where
  registry : Registry
  /-- Kinds that are reported as errors whatever their own severity is. -/
  escalated : List DiagnosticKind
  /-- Classes that earlier calls applied to the same element. -/
  previous : List Text
  deriving Repr

/-- The diagnostics of one class string. -/
def validate (ctx : ValidationContext) (classes : Text) : List Diagnostic :=
  (findings ctx.previous (ctx.registry.expandAliases classes)).map fun finding =>
    (Diagnostic.ofFinding finding).escalateIn ctx.escalated

/-- The diagnostics of a class string with the place that it came from. -/
structure Located (α : Type) where
  location : α
  classes : Text
  diagnostics : List Diagnostic
  deriving Repr

/-- Whether one of the diagnostics is an error. -/
def Located.hasErrors {α : Type} (entry : Located α) : Bool :=
  entry.diagnostics.any Diagnostic.isError

/-- The diagnostics of each class string, in order. -/
def validateAll (ctx : ValidationContext) (classStrings : List Text) : List (List Diagnostic) :=
  classStrings.map (validate ctx)

/-- The diagnostics of each class string with its place, in order. -/
def validateLocated
    {α : Type}
    (ctx : ValidationContext)
    (items : List (Text × α)) :
    List (Located α) :=
  items.map fun (classes, location) => ⟨location, classes, validate ctx classes⟩

end ClassLint
