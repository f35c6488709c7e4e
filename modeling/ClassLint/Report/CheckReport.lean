import ClassLint.Files.Scan
import ClassLint.Report.Json
import ClassLint.Validation

/-!
# Reports of a check

A check has diagnostics for every class string of the scanned files.  It is reported as
lines of text or as JSON; both list the same diagnostics in the same order and end the
same way.
-/

namespace ClassLint

/-- How a command ended. -/
inductive Outcome where
  | success | failure
  deriving DecidableEq, Repr

/-- What a check found. -/
structure CheckReport where
  filesScanned : Nat
  entries : List (Located ClassOccurrence)
  deriving Repr

/-- One diagnostic and the class string that it is about. -/
structure Remark where
  occurrence : ClassOccurrence
  diagnostic : Diagnostic
  deriving DecidableEq, Repr

namespace CheckReport

/-- The report on the class strings that a scan found. -/
def ofScan (ctx : ValidationContext) (scan : ScanResult) : CheckReport :=
  { filesScanned := scan.filesScanned
    entries := validateLocated ctx (scan.occurrences.map fun o => (o.found.value, o)) }

/-- Every diagnostic with its class string, in order. -/
def remarks (report : CheckReport) : List Remark :=
  report.entries.flatMap fun entry => entry.diagnostics.map fun d => ⟨entry.location, d⟩

/-- The number of errors. -/
def errors (report : CheckReport) : Nat :=
  report.remarks.countP fun remark => remark.diagnostic.isError

/-- The number of diagnostics that are no errors. -/
def warnings (report : CheckReport) : Nat :=
  report.remarks.countP fun remark => !remark.diagnostic.isError

/-- A check fails on errors and, if warnings are denied, on warnings. -/
def outcome (report : CheckReport) (denyWarnings : Bool) : Outcome :=
  if report.errors > 0 || (denyWarnings && report.warnings > 0) then .failure else .success

/-- The digits of a number. -/
def digits (n : Nat) : Text :=
  (Nat.repr n).toList

/-- The line of a diagnostic. -/
def remarkLine (remark : Remark) : Text :=
  remark.occurrence.path ++ ':' :: digits remark.occurrence.found.position.line ++
    ':' :: digits remark.occurrence.found.position.column ++ ": ".toList ++
    remark.diagnostic.toText ++ ['\n']

/-- The last line of the text. -/
def summaryLine (report : CheckReport) : Text :=
  "checked ".toList ++ digits report.entries.length ++ " class strings in ".toList ++
    digits report.filesScanned ++ " files: ".toList ++ digits report.errors ++
    " errors, ".toList ++ digits report.warnings ++ " warnings\n".toList

/-- The report as lines of text. -/
def toText (report : CheckReport) : Text :=
  report.remarks.flatMap remarkLine ++ report.summaryLine

/-- A diagnostic as JSON. -/
def diagnosticJson (d : Diagnostic) : JsonValue :=
  .object [
    ("severity".toList, .string d.severity.name),
    ("kind".toList, .string d.kind.name),
    ("message".toList, .string d.message),
    ("token".toList, .string d.token)]

/-- A class string with its diagnostics as JSON. -/
def entryJson (entry : Located ClassOccurrence) : JsonValue :=
  .object [
    ("path".toList, .string entry.location.path),
    ("line".toList, .number entry.location.found.position.line),
    ("column".toList, .number entry.location.found.position.column),
    ("class_string".toList, .string entry.classes),
    ("diagnostics".toList, .array (entry.diagnostics.map diagnosticJson))]

/-- The class strings that have diagnostics. -/
def flagged (report : CheckReport) : List (Located ClassOccurrence) :=
  report.entries.filter fun entry => !entry.diagnostics.isEmpty

/-- The report as a JSON value. -/
def toJson (report : CheckReport) : JsonValue :=
  .object [
    ("files_scanned".toList, .number report.filesScanned),
    ("class_strings".toList, .number report.entries.length),
    ("errors".toList, .number report.errors),
    ("warnings".toList, .number report.warnings),
    ("findings".toList, .array (report.flagged.map entryJson))]

end CheckReport

end ClassLint
