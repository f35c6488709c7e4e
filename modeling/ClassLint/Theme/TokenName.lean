import ClassLint.Text.Blank
import ClassLint.Theme.TokenKind

/-!
# Names of custom properties

How a value refers to a custom property, which names are well-formed, and whether the
name of a theme token fits its kind.

The check of a token's name ignores the case of ASCII letters, surrounding blanks, a
`var(…)` around the name with or without a fallback, and the leading `--`.
-/

namespace ClassLint

/-- A custom property whose name does not fit the kind it is used for. -/
structure TokenIssue where
  token : Text
  kind : TokenKind
  deriving DecidableEq, Repr

namespace TokenIssue

/-- The beginnings of names that would have fitted. -/
def expected (issue : TokenIssue) : List Text :=
  issue.kind.nameLeads

/-- What the user is told. -/
def message (issue : TokenIssue) : Text :=
  "Theme token '".toList ++ issue.token ++ "' used for ".toList ++ issue.kind.name ++
    " should start with ".toList ++ Text.join " or ".toList issue.expected ++ ".".toList

end TokenIssue

namespace Text

/-- The form in which token names are compared: lower case, without blanks around it, without
`var(…)` and fallback, and without the leading `--`. -/
def tokenStem (raw : Text) : Text :=
  let lowered := raw.trim.lower
  let inner :=
    match lowered.between? "var(".toList [')'] with
    | some inside => (inside.upTo ',').trim
    | none => lowered
  inner.withoutLead "--".toList

/-- Whether the text is a custom property name that a value may refer to. -/
def isPropertyReference (name : Text) : Bool :=
  name.continues "--".toList && !name.hasBlank

/-- The property named by `var(--name)`, `(--name)` or `--name`, each with an optional fallback
after a comma. -/
def referencedProperty? (value : Text) : Option Text :=
  let trimmed := value.trim
  let inner? :=
    match trimmed.dropLead? "var(".toList, trimmed.dropLead? ['('] with
    | some opened, _ => opened.dropTail? [')']
    | none, some opened => opened.dropTail? [')']
    | none, none => some trimmed
  inner?.bind fun inner =>
    let name := (inner.upTo ',').trim
    if name.isPropertyReference then some name else none

/-- Whether the text may be the name of a CSS property: a custom property, or letters, digits and
hyphens that begin with a letter after at most one hyphen. -/
def isPropertyName (raw : Text) : Bool :=
  if raw.isEmpty || raw.hasBlank then false
  else if raw.startsWith "--".toList then raw.continues "--".toList
  else
    match raw.withoutLead ['-'] with
    | [] => false
    | c :: s => c.isAlpha && s.all fun d => d.isAlphanum || d == '-'

end Text

/-- The issue with a token's name, unless the name fits the kind. -/
def TokenKind.nameIssue? (kind : TokenKind) (token : Text) : Option TokenIssue :=
  let stem := token.tokenStem
  if !stem.isEmpty && kind.nameLeads.any fun lead => stem.startsWith lead.tokenStem then none
  else some ⟨token, kind⟩

end ClassLint
