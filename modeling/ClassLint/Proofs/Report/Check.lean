import ClassLint.Output

/-!
# What a check reports

A check that is not refused has a configuration and a scan, and its output is that of one
report on both.  The report counts and lists the diagnostics of the scanned class strings,
each of them once and in order.

**Results.**
* `run_check_eq_ok_iff`: when a check is not refused, and what it puts out.
* `remarks_report`: the remarks of a report are the diagnostics of the scan.
* `outcome_eq_failure_iff`: a report fails on an error, or on any remark where warnings are
  denied.
-/

namespace ClassLint

-- Outcomes of runs can be compared, so a run on a small tree can be evaluated.
instance decidableEqExcept
    {ε α : Type} [DecidableEq ε] [DecidableEq α] :
    DecidableEq (Except ε α)
  | .ok a, .ok b => decidable_of_iff (a = b) (by simp)
  | .error d, .error e => decidable_of_iff (d = e) (by simp)
  | .ok _, .error _ => isFalse (by simp)
  | .error _, .ok _ => isFalse (by simp)

/-- What class strings are validated with under a configuration. -/
def Config.context (config : Config) : ValidationContext :=
  ⟨config.registry, config.escalatedKinds, []⟩

/-- The diagnostics of all class strings of a scan, in order. -/
def Config.remarks (config : Config) (scan : ScanResult) : List Remark :=
  scan.occurrences.flatMap fun o => (validate config.context o.found.value).map (Remark.mk o)

/-- The report on a scan under a configuration. -/
def Config.report (config : Config) (scan : ScanResult) : CheckReport :=
  .ofScan config.context scan

theorem checkReport_eq_ok_iff
    {s : Surroundings} {options : CheckOptions} {report : CheckReport} :
    checkReport s options = .ok report ↔
      ∃ config scan,
        Config.discover s options.config (options.root.getD ['.']) = .ok config ∧
        scanPatterns s (.ofRoot (options.root.getD ['.'])) options.inputs options.ignore =
          .ok scan ∧
        report = config.report scan := by
  rw [checkReport]
  cases hconfig : Config.discover s options.config (options.root.getD ['.']) with
  | error e => simp
  | ok config =>
      cases hscan :
          scanPatterns s (.ofRoot (options.root.getD ['.'])) options.inputs
            options.ignore with
      | error e => simp
      | ok scan =>
          constructor
          · rintro ⟨⟩
            exact ⟨config, scan, rfl, rfl, rfl⟩
          · rintro ⟨_, _, ⟨⟩, ⟨⟩, rfl⟩
            rfl

theorem run_check_eq_ok_iff
    {s : Surroundings} {options : CheckOptions} {output : Output} :
    Command.run s (.check options) = .ok output ↔
      ∃ config scan,
        Config.discover s options.config (options.root.getD ['.']) = .ok config ∧
        scanPatterns s (.ofRoot (options.root.getD ['.'])) options.inputs options.ignore =
          .ok scan ∧
        output = (config.report scan).toOutput s options := by
  rw [Command.run]
  cases hreport : checkReport s options with
  | error e =>
      constructor
      · rintro ⟨⟩
      · rintro ⟨config, scan, hconfig, hscan, -⟩
        rw [checkReport_eq_ok_iff.2 ⟨config, scan, hconfig, hscan, rfl⟩] at hreport
        cases hreport
  | ok report =>
      obtain ⟨config, scan, hconfig, hscan, rfl⟩ := checkReport_eq_ok_iff.1 hreport
      constructor
      · rintro ⟨⟩
        exact ⟨config, scan, hconfig, hscan, rfl⟩
      · rintro ⟨config', scan', hconfig', hscan', rfl⟩
        cases hconfig.symm.trans hconfig'
        cases hscan.symm.trans hscan'
        rfl

theorem remarks_report
    (config : Config) (scan : ScanResult) :
    (config.report scan).remarks = config.remarks scan := by
  simp only [CheckReport.remarks, Config.report, CheckReport.ofScan, validateLocated,
    List.map_map, List.flatMap_map, Config.remarks]
  rfl

namespace CheckReport

theorem errors_add_warnings
    (report : CheckReport) :
    report.errors + report.warnings = report.remarks.length := by
  rw [errors, warnings, List.length_eq_countP_add_countP fun remark => remark.diagnostic.isError]
  simp

theorem outcome_eq_failure_iff
    {report : CheckReport} {denyWarnings : Bool} :
    report.outcome denyWarnings = .failure ↔
      (∃ remark ∈ report.remarks, remark.diagnostic.isError = true) ∨
      (denyWarnings = true ∧ report.remarks ≠ []) := by
  have herrors : 0 < report.errors ↔
      ∃ remark ∈ report.remarks, remark.diagnostic.isError = true := List.countP_pos_iff
  have hremarks : report.remarks ≠ [] ↔ 0 < report.errors ∨ 0 < report.warnings := by
    rw [← List.length_pos_iff, ← errors_add_warnings]
    omega
  have houtcome : report.outcome denyWarnings = .failure ↔
      0 < report.errors ∨ (denyWarnings = true ∧ 0 < report.warnings) := by
    rw [outcome]
    split
    · next h => simpa using h
    · next h => simpa using h
  rw [houtcome, hremarks, ← herrors]
  constructor
  · rintro (h | ⟨hdeny, h⟩)
    · exact Or.inl h
    · exact Or.inr ⟨hdeny, Or.inr h⟩
  · rintro (h | ⟨hdeny, h | h⟩)
    · exact Or.inl h
    · exact Or.inl h
    · exact Or.inr ⟨hdeny, h⟩

end CheckReport

end ClassLint
