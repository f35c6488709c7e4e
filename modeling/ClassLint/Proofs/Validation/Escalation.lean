import ClassLint.Proofs.Report.Check
import ClassLint.Run
import ClassLint.Proofs.Validation.Findings

/-!
# Escalation

The findings of a class string do not depend on the kinds that a project raises to errors;
only the severities do.  No finding of a validation is an error on its own, so the raised
kinds are what decides whether a check has errors.

**Results.**
* `validate_escalated`: a validation with raised kinds, from the one without.
* `isError_iff_of_mem_validate`: errors are the diagnostics of the raised kinds.
* `escalation_decides_errors`: the same, and what follows for the outcome of a check.
-/

namespace ClassLint

theorem kind_ne_requiresLiteral_of_mem_findings
    {previous tokens : List Text} {f : Finding}
    (h : f ∈ findings previous tokens) :
    f.kind ≠ .requiresLiteral := by
  simp only [findings, List.mem_append, List.mem_flatMap, List.mem_map] at h
  rcases h with ((⟨token, -, htoken⟩ | ⟨c, -, rfl⟩) | ⟨d, -, rfl⟩) | ⟨c, -, rfl⟩
  · have hkind := kind_of_mem_tokenFindings htoken
    intro heq
    rw [heq] at hkind
    revert hkind
    decide
  · intro hkind
    cases hkind
  · intro hkind
    cases hkind
  · intro hkind
    cases hkind

namespace Diagnostic

/-- A diagnostic of a kind that is no error by default is one if and only if its kind is raised. -/
theorem isError_escalateIn_ofFinding_iff
    {f : Finding}
    (h : f.kind ≠ .requiresLiteral)
    (kinds : List DiagnosticKind) :
    ((ofFinding f).escalateIn kinds).isError = true ↔ f.kind ∈ kinds := by
  have hseverity : f.kind.defaultSeverity = .warning := by
    cases hkind : f.kind <;> first | rfl | exact absurd hkind h
  rw [escalateIn]
  split
  · next hmem => simpa [escalate, isError, kind, ofFinding] using hmem
  · next hmem => simpa [isError, kind, ofFinding, hseverity] using hmem

end Diagnostic

theorem validate_eq_map_escalateIn
    (registry : Registry) (escalated : List DiagnosticKind) (previous : List Text)
    (classes : Text) :
    validate ⟨registry, escalated, previous⟩ classes =
      (validate ⟨registry, [], previous⟩ classes).map (Diagnostic.escalateIn escalated) := by
  simp only [validate, List.map_map]
  rfl

theorem mem_validate
    {ctx : ValidationContext} {classes : Text} {d : Diagnostic}
    (h : d ∈ validate ctx classes) :
    d.kind ≠ .requiresLiteral ∧ (d.isError = true ↔ d.kind ∈ ctx.escalated) := by
  obtain ⟨f, hf, rfl⟩ := List.mem_map.1 h
  have hkind := kind_ne_requiresLiteral_of_mem_findings hf
  rw [Diagnostic.kind_escalateIn]
  constructor
  · exact hkind
  · exact Diagnostic.isError_escalateIn_ofFinding_iff hkind ctx.escalated

theorem mem_escalatedKinds_iff
    {config : Config} {kind : DiagnosticKind} :
    kind ∈ config.escalatedKinds ↔ kind ∈ config.escalate := by
  simp [Config.escalatedKinds, DiagnosticKind.mem_all]

/-- A report has an error where the plain diagnostics have one of a kind that is raised. -/
theorem exists_error_report_iff
    {config : Config} {scan : ScanResult} :
    (∃ remark ∈ (config.report scan).remarks, remark.diagnostic.isError = true) ↔
      ∃ o ∈ scan.occurrences,
        ∃ d ∈ validate ⟨config.registry, [], []⟩ o.found.value, d.kind ∈ config.escalate := by
  rw [remarks_report]
  simp only [Config.remarks, Config.context, List.mem_flatMap, List.mem_map]
  constructor
  · rintro ⟨remark, ⟨o, ho, d, hd, rfl⟩, herror⟩
    have hkind := (mem_validate hd).2.1 herror
    rw [validate_eq_map_escalateIn] at hd
    obtain ⟨plain, hplain, rfl⟩ := List.mem_map.1 hd
    rw [Diagnostic.kind_escalateIn] at hkind
    exact ⟨o, ho, plain, hplain, mem_escalatedKinds_iff.1 hkind⟩
  · rintro ⟨o, ho, d, hd, hkind⟩
    have hraised :
        d.escalateIn config.escalatedKinds ∈
          validate ⟨config.registry, config.escalatedKinds, []⟩ o.found.value := by
      rw [validate_eq_map_escalateIn]
      exact List.mem_map_of_mem hd
    refine ⟨_, ⟨o, ho, _, hraised, rfl⟩, (mem_validate hraised).2.2 ?_⟩
    rw [Diagnostic.kind_escalateIn]
    exact mem_escalatedKinds_iff.2 hkind

theorem remarks_report_ne_nil_iff
    {config : Config} {scan : ScanResult} :
    (config.report scan).remarks ≠ [] ↔
      ∃ o ∈ scan.occurrences, validate ⟨config.registry, [], []⟩ o.found.value ≠ [] := by
  simp only [remarks_report, Config.remarks, Config.context,
    validate_eq_map_escalateIn config.registry config.escalatedKinds, ne_eq,
    List.flatMap_eq_nil_iff, List.map_eq_nil_iff, Classical.not_forall, exists_prop]

/--
**Escalation decides errors.**  Raised kinds change severities only, to errors and for
exactly the diagnostics of these kinds; nothing else is an error, since no validation
reports a class string that is no literal.  So a check fails if and only if some scanned
class string has a diagnostic of a kind that the configuration raises, or any diagnostic at
all where warnings are denied.
-/
theorem escalation_decides_errors :
    (∀ (registry : Registry) (escalated : List DiagnosticKind) (previous : List Text)
        (classes : Text),
      validate ⟨registry, escalated, previous⟩ classes =
          (validate ⟨registry, [], previous⟩ classes).map
            (fun d => if d.kind ∈ escalated then { d with severity := .error } else d) ∧
        (validate ⟨registry, escalated, previous⟩ classes).map
            (fun d => (d.kind, d.message, d.token)) =
          (validate ⟨registry, [], previous⟩ classes).map
            (fun d => (d.kind, d.message, d.token)) ∧
        ∀ d ∈ validate ⟨registry, escalated, previous⟩ classes,
          d.kind ≠ .requiresLiteral ∧ (d.isError = true ↔ d.kind ∈ escalated)) ∧
    (∀ (s : Surroundings) (options : CheckOptions) (config : Config) (scan : ScanResult),
      Config.discover s options.config (options.root.getD ['.']) = .ok config →
      scanPatterns s (.ofRoot (options.root.getD ['.'])) options.inputs options.ignore =
        .ok scan →
      ∃ output, Command.run s (.check options) = .ok output ∧
        (output.outcome = .failure ↔
          (∃ o ∈ scan.occurrences,
            ∃ d ∈ validate ⟨config.registry, [], []⟩ o.found.value,
              d.kind ∈ config.escalate) ∨
          (options.denyWarnings = true ∧
            ∃ o ∈ scan.occurrences,
              validate ⟨config.registry, [], []⟩ o.found.value ≠ []))) := by
  constructor
  · intro registry escalated previous classes
    refine ⟨?_, ?_, fun d hd => mem_validate hd⟩
    · rw [validate_eq_map_escalateIn]
      apply List.map_congr_left
      intro d _
      simp [Diagnostic.escalateIn, Diagnostic.escalate]
    · rw [validate_eq_map_escalateIn, List.map_map]
      apply List.map_congr_left
      intro d _
      simp only [Function.comp_apply, Diagnostic.escalateIn]
      split <;> rfl
  · intro s options config scan hconfig hscan
    refine ⟨_, run_check_eq_ok_iff.2 ⟨config, scan, hconfig, hscan, rfl⟩, ?_⟩
    have houtcome :
        ((config.report scan).toOutput s options).outcome =
          (config.report scan).outcome options.denyWarnings := rfl
    rw [houtcome, CheckReport.outcome_eq_failure_iff, exists_error_report_iff,
      remarks_report_ne_nil_iff]

/-- A file with a class that does not exist, and a configuration that raises its kind. -/
def strictTree : FileTree :=
  ⟨[(["a".toList], "class='p-4 nope'".toUTF8),
    (["c".toList], "lint.escalate = ['unknown-class']".toUTF8)], [], []⟩

/-- The check fails although it does not deny warnings. -/
theorem escalation_decides_errors_strictTree :
    Config.discover strictTree (some "c".toList) "a".toList =
      .ok ⟨.empty, .empty, [.unknownClass]⟩ ∧
    scanPatterns strictTree (.ofRoot "a".toList) ["**".toList] [] =
      .ok ⟨1, [⟨"a".toList, ⟨1, 8⟩, "p-4 nope".toList⟩]⟩ ∧
    ∃ output,
      Command.run strictTree
          (.check ⟨["**".toList], [], some "c".toList, some "a".toList, false, false⟩) =
        .ok output ∧
      output.outcome = .failure := by
  have hconfig : Config.discover strictTree (some "c".toList) "a".toList =
      .ok ⟨.empty, .empty, [.unknownClass]⟩ := by
    decide +kernel
  have hscan : scanPatterns strictTree (.ofRoot "a".toList) ["**".toList] [] =
      .ok ⟨1, [⟨"a".toList, ⟨1, 8⟩, "p-4 nope".toList⟩]⟩ := by
    decide +kernel
  obtain ⟨output, hrun, houtcome⟩ := escalation_decides_errors.2 strictTree
    ⟨["**".toList], [], some "c".toList, some "a".toList, false, false⟩ _ _ hconfig hscan
  have hunknown : ⟨.warning, .unknownClass "nope".toList "nope".toList⟩ ∈
      validate ⟨⟨.empty, .empty⟩, [], []⟩ "p-4 nope".toList := by
    decide +kernel
  refine ⟨hconfig, hscan, output, hrun, houtcome.2 (Or.inl ?_)⟩
  exact ⟨_, List.mem_singleton_self _, _, hunknown, List.mem_singleton_self _⟩

end ClassLint
