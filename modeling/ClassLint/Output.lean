import ClassLint.Color.Resolution
import ClassLint.Command
import ClassLint.Config.Discovery
import ClassLint.Report.CheckReport
import ClassLint.Utility.Scope

/-!
# What a command prints

What a command prints and how it ends, as a function of the command and of its surroundings.
-/

namespace ClassLint

/-- What a run printed and how it ended. -/
structure Output where
  outcome : Outcome
  text : Text
  deriving DecidableEq, Repr

/-- Why a run did not finish. -/
inductive RunError where
  | usage (e : UsageError)
  | config (e : ConfigError)
  | scan (e : ScanError)
  deriving DecidableEq, Repr

/-- What the user is told. -/
def RunError.message : RunError → Text
  | usage e => e.message
  | config e => e.message
  | scan e => e.message

/-- The lines of the help text. -/
def helpLines : List String :=
  ["tailcheck",
   "",
   "USAGE:",
   "  tailcheck check [--config <path>] [--root <dir>] [--ignore <glob>] [--json] [--deny-warnings] <glob...>",
   "  tailcheck resolve [--config <path>] [--dark] <utility...>",
   "",
   "EXAMPLES:",
   "  tailcheck check \"src/**/*.\x7bhtml,tsx,rs\x7d\"",
   "  tailcheck check -I \"**/generated/**\" --json \"src/**/*.tsx\"",
   "  tailcheck check -c tailcheck.toml --deny-warnings \"src/**/*.rs\"",
   "  tailcheck resolve bg-blue-500/50 \"text-[oklch(62.3%_0.214_259.815)]\"",
   "  tailcheck resolve --dark bg-surface",
   "",
   "Set TAILCHECK_LOG (e.g. tailcheck=debug) for diagnostics on stderr."]

/-- The help text. -/
def helpText : Text :=
  helpLines.flatMap fun line => line.toList ++ ['\n']

/-- The report of a check. -/
def checkReport (s : Surroundings) (options : CheckOptions) : Except RunError CheckReport :=
  let base := options.root.getD ['.']
  match Config.discover s options.config base with
  | .error e => .error (.config e)
  | .ok config =>
      match scanPatterns s (.ofRoot base) options.inputs options.ignore with
      | .error e => .error (.scan e)
      | .ok scan => .ok (.ofScan ⟨config.registry, config.escalatedKinds, []⟩ scan)

/-- The output of a report. -/
def CheckReport.toOutput
    (report : CheckReport)
    (s : Surroundings)
    (options : CheckOptions) :
    Output :=
  { outcome := report.outcome options.denyWarnings
    text := if options.json then s.jsonText report.toJson ++ ['\n'] else report.toText }

/-- The appearance that a utility is resolved for. -/
def utilityAppearance (dark : Bool) (utility : ScopedClass) : Appearance :=
  if dark || utility.variants.contains "dark".toList then .dark else .light

/-- What a utility resolves to with the variables of a registry. -/
def resolveClass (registry : Registry) (dark : Bool) (utility : Text) : ColorResolution :=
  let parsed := ScopedClass.ofText utility
  let scope : ColorScope := ⟨.empty, registry, utilityAppearance dark parsed⟩
  scope.resolveUtility parsed.base

/-- How a resolution is printed. -/
def ColorResolution.toText : ColorResolution → Text
  | color c opacity => (applyOpacity c opacity).toHex
  | noOverride => "inherit".toList
  | unresolved => "unresolved".toList

/-- Whether the resolution gives neither a color nor the one that is there. -/
def ColorResolution.isUnresolved : ColorResolution → Bool
  | unresolved => true
  | _ => false

/-- The line of a utility and what it resolves to. -/
def resolutionLine (utility : Text) (resolution : ColorResolution) : Text :=
  utility ++ '\t' :: resolution.toText ++ ['\n']

/-- The output of a resolution of colors. -/
def resolveOutput (registry : Registry) (options : ResolveOptions) : Output :=
  let resolve := resolveClass registry options.dark
  { outcome :=
      if options.utilities.any fun u => (resolve u).isUnresolved then .failure else .success
    text := options.utilities.flatMap fun u => resolutionLine u (resolve u) }

/-- Runs a command. -/
def Command.run (s : Surroundings) : Command → Except RunError Output
  | .help => .ok ⟨.success, helpText⟩
  | .check options =>
      match checkReport s options with
      | .error e => .error e
      | .ok report => .ok (report.toOutput s options)
  | .resolve options =>
      match Config.discover s options.config ['.'] with
      | .error e => .error (.config e)
      | .ok config => .ok (resolveOutput config.registry options)

/-- Reads the arguments of a run and runs their command. -/
def runArguments (s : Surroundings) (args : List Text) : Except RunError Output :=
  match Command.parse args with
  | .error e => .error (.usage e)
  | .ok command => command.run s

end ClassLint
