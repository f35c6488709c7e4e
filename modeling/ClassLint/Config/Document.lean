import ClassLint.Config
import ClassLint.Toml.Document

/-!
# Configurations as documents

The configuration of a project is a TOML document; keys that mean nothing are ignored.  A record of
named fields may also be written as an array of the fields in order.
-/

namespace ClassLint

namespace Toml

/-- The text of a string. -/
def Value.text? : Value → Option Text
  | .string s => some s
  | _ => none

/-- The key under which a date or time appears where a table is expected. -/
def momentKey : Text := "$__toml_private_datetime".toList

/-- The entries of a table; a date or time counts as a table with its canonical form. -/
def Value.entries? : Value → Option (List (Text × Value))
  | .table entries => some entries
  | .dateTime moment => some [(momentKey, .string moment.toText)]
  | _ => none

/-- The value of a field in a record, which is a table or an array with the field at its place. -/
def Value.field? (record : Value) (name : String) (place : Nat) : Option Value :=
  match record with
  | .array items => items[place]?
  | record => (record.entries?).bind fun entries => entries.lookup name.toList

/-- Whether the value can hold the fields of a record. -/
def Value.isRecord : Value → Bool
  | .array _ => true
  | record => (record.entries?).isSome

/-- Whether the value is a table or an array with nothing inside. -/
def Value.isEmpty : Value → Bool
  | .table entries => entries.isEmpty
  | .array items => items.isEmpty
  | _ => false

/-- The name of an enumeration's member: a string, or the only key of a table with nothing in it. -/
def Value.memberName? : Value → Option Text
  | .string s => some s
  | .table [(key, v)] => if v.isEmpty then some key else none
  | _ => none

/-- What a field of a record gives, or the default if the record does not have the field. -/
def Value.fieldOr
    {α : Type}
    (record : Value)
    (name : String)
    (place : Nat)
    (absent : α)
    (read : Value → Option α) :
    Option α :=
  if record.isRecord then
    match record.field? name place with
    | some v => read v
    | none => some absent
  else none

/-- The entries of a table, each as one thing. -/
def Value.tableOf? {α : Type} (read : Value → Option α) (v : Value) : Option (NameTable α) :=
  (v.entries?).bind fun entries =>
    (entries.mapM fun entry => (read entry.2).map fun item => (entry.1, item)).map
      NameTable.ofList

/-- A theme variable. -/
def Value.variable? (v : Value) : Option ThemeVariable := do
  let kind ← ((v.field? "kind" 0).bind Value.memberName?).bind TokenKind.ofName?
  let light ← (v.field? "light" 1).bind Value.text?
  let dark ← v.fieldOr "dark" 2 none fun dark => dark.text?.map some
  return ⟨kind, light, dark⟩

/-- Kinds of diagnostics. -/
def Value.kinds? : Value → Option (List DiagnosticKind)
  | .array items => items.mapM fun item => item.memberName?.bind DiagnosticKind.ofName?
  | _ => none

/-- The configuration that a document holds. -/
def Value.config? (document : Value) : Option Config := do
  let theme ← document.fieldOr "theme" 0 .empty fun record =>
    record.fieldOr "variables" 0 .empty (Value.tableOf? Value.variable?)
  let aliases ← document.fieldOr "aliases" 1 .empty (Value.tableOf? Value.text?)
  let escalate ← document.fieldOr "lint" 2 [] fun lint =>
    lint.fieldOr "escalate" 0 [] Value.kinds?
  return ⟨theme, aliases, escalate⟩

/-- The configuration that the text of a document holds. -/
def parseConfig (text : Text) : Option Config :=
  (parse text).bind fun entries => (Value.table entries).config?

end Toml

end ClassLint
