/-
  ArrowLint.Proofs.Report.Totals

  Totals and what is listed. A report lists only those files of a run on which there is something
  to say, while its totals are taken over all of them. They agree all the same, in either format
  (`Workspace.reports_tally`): a file without violations adds none, and an outcome that shows
  nothing changed and nothing remaining comes of no fix at all (`Linter.applied_of_isSpotless`),
  since fixes that give back a text have violations left to fix in it.
-/

import ArrowLint.Report.Plain
import ArrowLint.Proofs.Candidate.Finding
import ArrowLint.Proofs.Fix.Clean
import ArrowLint.Proofs.Lint.Reports
import ArrowLint.Proofs.Report.Document
import ArrowLint.Proofs.Run.Originals
import ArrowLint.Proofs.Run.Reports

namespace ArrowLint

/-- Leaving out items on which `count` is zero does not change the `total`. -/
theorem total_filter {α : Type} {count : α → Nat} {p : α → Bool} {items : List α}
    (h : ∀ x ∈ items, p x = false → count x = 0) :
    total count items = total count (items.filter p) := by
  induction items with
  | nil => rfl
  | cons x items ih =>
    obtain ⟨hx, hitems⟩ := List.forall_mem_cons.1 h
    rw [total_cons, ih hitems]
    cases hp : p x with
    | false => rw [hx hp, Nat.zero_add, List.filter_cons_of_neg (by simp [hp])]
    | true => rw [List.filter_cons_of_pos hp, total_cons]

/-- Leaving out items without `rows` does not change the rows of a list. -/
theorem flatMap_filter {α β : Type} {rows : α → List β} {p : α → Bool} {items : List α}
    (h : ∀ x ∈ items, p x = false → rows x = []) :
    items.flatMap rows = (items.filter p).flatMap rows := by
  induction items with
  | nil => rfl
  | cons x items ih =>
    obtain ⟨hx, hitems⟩ := List.forall_mem_cons.1 h
    rw [List.flatMap_cons, ih hitems]
    cases hp : p x with
    | false => rw [hx hp, List.nil_append, List.filter_cons_of_neg (by simp [hp])]
    | true => rw [List.filter_cons_of_pos hp, List.flatMap_cons]

/-! ## Reports on fixed files -/

/-- Whether the reports on fixed files, in both formats, list the same outcomes in the order of the
    run and leave out only what has neither changed nor anything remaining, with totals that are
    those of what is `listed`. -/
structure FixSummary.Tallies (s : FixSummary) (listed : List FixOutcome) : Prop where
  sublist : listed.Sublist s.outcomes
  listed_iff : ∀ o ∈ s.outcomes, o ∈ listed ↔ o.isChanged = true ∨ o.remaining ≠ []
  changed : s.outcomes.filter (·.isChanged) = listed.filter (·.isChanged)
  filesChanged : s.filesChanged = listed.countP (·.isChanged)
  fixesApplied : s.fixesApplied = total (·.applied) listed
  remaining : s.remaining = total (·.remaining.length) listed
  /-- A row for each outcome, and a line with the totals, whatever `draw` is. -/
  plain : s.boxed.rows = (listed.map fun o =>
      [o.path, toString o.applied, toString o.passes, toString o.remaining.length]) ∧
    ∀ draw, s.plain draw = (if listed = [] then "" else draw s.boxed)
      ++ "Files changed: " ++ toString (listed.countP (·.isChanged))
      ++ "  Fixes applied: " ++ toString (total (·.applied) listed)
      ++ "  Remaining: " ++ toString (total (·.remaining.length) listed) ++ "\n"
  /-- The document is read back as the same outcomes and totals. -/
  document : Json.parse? s.document = some (.table [
    ("files", .list (listed.map FixOutcome.value)),
    ("files_changed", countValue (listed.countP (·.isChanged))),
    ("fixes_applied", countValue (total (·.applied) listed)),
    ("remaining", countValue (total (·.remaining.length) listed)),
    ("failed_files", .list (s.failed.map .text))])

/-- A summary `Tallies` with what is `reported` as long as outcomes that are `IsSpotless` have made
    no fix. -/
theorem FixSummary.tallies {s : FixSummary}
    (h : ∀ o ∈ s.outcomes, o.IsSpotless → o.applied = 0) : s.Tallies s.reported := by
  have homitted : ∀ o : FixOutcome, (o.isChanged || !o.remaining.isEmpty) = false ↔
      o.IsSpotless := by
    intro o
    rw [Bool.or_eq_false_iff, Bool.not_eq_false', List.isEmpty_iff]
    exact and_comm
  have hchanged : s.outcomes.filter (·.isChanged) = s.reported.filter (·.isChanged) := by
    rw [reported, List.filter_filter]
    refine List.filter_congr fun o _ => ?_
    cases o.isChanged with
    | false => rfl
    | true => rfl
  have hfilesChanged : s.filesChanged = s.reported.countP (·.isChanged) := by
    rw [filesChanged, List.countP_eq_length_filter, List.countP_eq_length_filter, hchanged]
  have hfixesApplied : s.fixesApplied = total (·.applied) s.reported :=
    total_filter fun o ho hp => h o ho ((homitted o).1 hp)
  have hremaining : s.remaining = total (·.remaining.length) s.reported :=
    total_filter fun o _ hp => List.length_eq_zero_iff.2 ((homitted o).1 hp).1
  refine {
    sublist := List.filter_sublist
    listed_iff := fun o ho => by simp [reported, ho]
    changed := hchanged
    filesChanged := hfilesChanged
    fixesApplied := hfixesApplied
    remaining := hremaining
    plain := ⟨rfl, fun draw => ?_⟩
    document := ?_ }
  · rw [plain, hfilesChanged, hfixesApplied, hremaining]
    simp only [List.isEmpty_iff]
  · rw [parse?_document, value, hfilesChanged, hfixesApplied, hremaining]

/-! ## Reports on checked files -/

/-- Whether the reports on checked files, in both formats, list the same results in the order of
    the run and leave out only those without violations, with a total that is that of what is
    `listed`. -/
structure CheckSummary.Tallies (s : CheckSummary) (listed : List LintResult) : Prop where
  sublist : listed.Sublist s.results
  listed_iff : ∀ r ∈ s.results, r ∈ listed ↔ r.violations ≠ []
  violationCount : s.violationCount = total (·.violations.length) listed
  /-- The `location` of a violation starts with the path of its file. -/
  located : ∀ r ∈ listed, ∀ v ∈ r.violations, ∃ column : Nat,
    v.location = r.path ++ ":" ++ toString v.line ++ ":" ++ toString column
  /-- A row for each violation, file by file, and a line with the totals, whatever `draw` is. -/
  plain : s.boxed.rows = (listed.flatMap fun r => r.violations.map fun v =>
      [v.location, v.code, v.message, Text.headline v.fix.text]) ∧
    ∀ draw, s.plain draw = if listed = [] then
        "No arrow-convertible functions found in " ++ toString s.results.length ++ " file(s).\n"
      else
        draw s.boxed ++ toString (total (·.violations.length) listed)
          ++ " violation(s) in " ++ toString listed.length
          ++ " file(s). Run 'prefer-arrow fix' to apply the rewrites.\n"
  /-- The document is read back as the same results and totals. -/
  document : Json.parse? s.document = some (.table [
    ("files", .list (listed.map LintResult.value)),
    ("violation_count", countValue (total (·.violations.length) listed)),
    ("failed_files", .list (s.failed.map .text))])

theorem CheckSummary.tallies {s : CheckSummary}
    (h : ∀ r ∈ s.results, ∀ v ∈ r.violations, ∃ column : Nat,
      v.location = r.path ++ ":" ++ toString v.line ++ ":" ++ toString column) :
    s.Tallies s.reported := by
  have homitted : ∀ r : LintResult, r.hasViolations = false ↔ r.violations = [] := by
    simp [LintResult.hasViolations]
  have hcount : s.violationCount = total (·.violations.length) s.reported :=
    total_filter fun r _ hp => List.length_eq_zero_iff.2 ((homitted r).1 hp)
  have hrows : s.boxed.rows = s.reported.flatMap fun r => r.violations.map fun v =>
      [v.location, v.code, v.message, Text.headline v.fix.text] :=
    flatMap_filter fun r _ hp => by rw [(homitted r).1 hp, List.map_nil]
  have hhas : s.hasViolations = true ↔ s.reported ≠ [] := by
    rw [hasViolations_iff, ne_eq, reported, List.filter_eq_nil_iff]
    simp [LintResult.hasViolations]
  refine {
    sublist := List.filter_sublist
    listed_iff := fun r hr => by simp [reported, LintResult.hasViolations, hr]
    violationCount := hcount
    located := fun r hr => h r (List.mem_filter.1 hr).1
    plain := ⟨hrows, fun draw => ?_⟩
    document := ?_ }
  · by_cases hnil : s.reported = []
    · rw [plain, if_neg (by simp [hhas, hnil]), if_pos hnil]
    · rw [plain, if_pos (hhas.2 hnil), if_neg hnil, hcount]
  · rw [parse?_document, value, hcount]

/-! ## Runs -/

/-- An outcome that `IsSpotless` comes of no fix: nothing was reported on the source, or something
    would be on what it has come to. -/
theorem Linter.applied_of_isSpotless {linter : Linter} {source path : String} {limit : Int}
    {report : FixReport} (h : linter.fixSource source path limit = .ok report)
    (hspotless : report.outcome.IsSpotless) : report.outcome.applied = 0 := by
  obtain ⟨first, rest, hfirst, hrest, hout, -⟩ := fixSource_eq_ok h
  rw [(isSpotless_iff hfirst h).1 hspotless, fixPending_nil] at hrest
  rw [hout, ← Except.ok.inj hrest]
  rfl

/-- The `location` of a violation starts with the path that the source was linted under. -/
theorem Linter.exists_location {linter : Linter} {source path : String} {report : LintReport}
    (h : linter.lint source path = .ok report) {v : Violation} (hv : v ∈ report.result.violations) :
    report.result.path = path ∧ ∃ column : Nat,
      v.location = path ++ ":" ++ toString v.line ++ ":" ++ toString column := by
  rw [violations_eq_map_reports h] at hv
  obtain ⟨⟨n, _⟩, hmem, rfl⟩ := List.mem_map.1 hv
  obtain ⟨c, -, hjudge⟩ := Rule.exists_judge_of_check (mem_reports_iff.1 hmem).2
  obtain ⟨_, _, -, -, -, heq⟩ := Rule.judge_eq_violation hjudge
  obtain ⟨_, -, rfl⟩ := map_eq_ok_iff.1 h
  refine ⟨rfl, c.node.label.column, ?_⟩
  dsimp only
  rw [heq]
  rfl

namespace Workspace

variable {w : Workspace} {mode : FixMode} {s : FileStore} {files : List Location}

/-- Every outcome of `fixFiles` is that of `fixSource` on some source. -/
theorem exists_fixSource_of_mem_outcomes {o : FixOutcome}
    (ho : o ∈ (w.fixFiles mode s files).outcomes) :
    ∃ source path report, w.linter.fixSource source path mode.limit = .ok report ∧
      o = report.outcome := by
  -- on the files, for all stores: each file leaves another store to those behind it
  induction files generalizing s with
  | nil => cases ho
  | cons file files ih =>
    rcases w.fixFiles_cons mode s file files rfl with ⟨-, -, -, hnone⟩ |
      ⟨plan, hplan, ⟨-, -, -, hnone⟩ | ⟨t, rest, -, rfl, -, -, -, houtcomes⟩⟩
    · rw [hnone] at ho
      cases ho
    · rw [hnone] at ho
      cases ho
    · rw [houtcomes] at ho
      rcases List.mem_append.1 ho with ho | ho
      · rcases planFix_eq_ok hplan with ⟨_, -, hout, -⟩ | ⟨source, report, -, hfix, hout, -⟩
        · simp [hout] at ho
        · rw [hout] at ho
          exact ⟨source, _, report, hfix, List.mem_singleton.1 ho⟩
      · exact ih ho

/-- Every result of `checkFiles` is that of `lint` on some source. -/
theorem exists_lint_of_mem_results {checked : Checked} (h : w.checkFiles s files = .ok checked)
    {r : LintResult} (hr : r ∈ checked.results) :
    ∃ source path report, w.linter.lint source path = .ok report ∧ r = report.result := by
  induction files generalizing checked with
  | nil =>
    obtain rfl := Except.ok.inj h
    cases hr
  | cons file files ih =>
    rw [checkFiles] at h
    split at h
    · obtain ⟨rest, hrest, rfl⟩ := map_eq_ok_iff.1 h
      exact ih hrest hr
    · split at h
      · cases h
      · next source _ _ report hreport =>
        obtain ⟨rest, hrest, rfl⟩ := map_eq_ok_iff.1 h
        rcases List.mem_cons.1 hr with rfl | hr
        · exact ⟨source, _, report, hreport, rfl⟩
        · exact ih hrest hr

/-- The reports on a run, in both formats, list the same files in the same order, and their totals
    are those of what is `reported`, although they leave out files. -/
theorem reports_tally (w : Workspace) (s : FileStore) (paths : List String) :
    (∀ mode summary, (w.fix mode s paths).summary = .ok summary →
      summary.Tallies summary.reported) ∧
    ∀ run, w.check s paths = .ok run → run.summary.Tallies run.summary.reported := by
  constructor
  · intro mode summary h
    refine FixSummary.tallies fun o ho hspotless => ?_
    rw [(fix_summary_eq_ok h).2] at ho
    obtain ⟨source, path, report, hfix, rfl⟩ := exists_fixSource_of_mem_outcomes ho
    exact Linter.applied_of_isSpotless hfix hspotless
  · intro run h
    obtain ⟨checked, hchecked, rfl⟩ := map_eq_ok_iff.1 h
    refine CheckSummary.tallies fun r hr v hv => ?_
    obtain ⟨source, path, report, hreport, rfl⟩ := exists_lint_of_mem_results hchecked hr
    obtain ⟨hpath, column, hlocation⟩ := Linter.exists_location hreport hv
    exact ⟨column, by rw [hpath, hlocation]⟩

end Workspace

/-- A project with `function f() {}` in one file and an arrow function in another. -/
def FileStore.functionAndArrow : FileStore :=
  { files := [
      (⟨["p", "a.ts"]⟩, Bytes.ofText "function f() \x7b\x7d"),
      (⟨["p", "b.ts"]⟩, Bytes.ofText "const g = () => 1;")]
    directories := [⟨["p"]⟩] }

/-- A run of `fix` over the two files and a run of `check` each list the first file only. -/
theorem Workspace.reports_tally_functionAndArrow :
    (∃ summary, (emptyFunction.fix {} .functionAndArrow ["a.ts", "b.ts"]).summary = .ok summary ∧
      summary.outcomes.map (·.path) = ["/p/a.ts", "/p/b.ts"] ∧
      summary.reported.map (·.path) = ["/p/a.ts"] ∧ summary.Tallies summary.reported) ∧
    ∃ run, emptyFunction.check .functionAndArrow ["a.ts", "b.ts"] = .ok run ∧
      run.summary.results.map (·.path) = ["/p/a.ts", "/p/b.ts"] ∧
      run.summary.reported.map (·.path) = ["/p/a.ts"] ∧
      run.summary.Tallies run.summary.reported := by
  have hfiles : emptyFunction.collect .functionAndArrow ["a.ts", "b.ts"]
      = [⟨["p", "a.ts"]⟩, ⟨["p", "b.ts"]⟩] := by
    rw [collect, Collect.sources, Collect.sorted, List.mergeSort_of_pairwise (by decide +kernel)]
    decide +kernel
  have htally := reports_tally emptyFunction .functionAndArrow ["a.ts", "b.ts"]
  constructor
  · have hfix : (emptyFunction.fix {} .functionAndArrow ["a.ts", "b.ts"]).summary = .ok {
        outcomes := [
          { path := "/p/a.ts", source := "function f() \x7b\x7d"
            fixed := "const f = () => \x7b\x7d;"
            applied := 1, passes := 1, remaining := [] },
          { path := "/p/b.ts", source := "const g = () => 1;", fixed := "const g = () => 1;"
            applied := 0, passes := 0, remaining := [] }]
        failed := [] } := by
      unfold fix
      rw [hfiles]
      decide +kernel
    exact ⟨_, hfix, rfl, by decide, htally.1 _ _ hfix⟩
  · have hpaths : (emptyFunction.check .functionAndArrow ["a.ts", "b.ts"]).map (fun run =>
        (run.summary.results.map (·.path), run.summary.reported.map (·.path)))
          = .ok (["/p/a.ts", "/p/b.ts"], ["/p/a.ts"]) := by
      unfold check
      rw [hfiles]
      decide +kernel
    obtain ⟨run, hrun, hpaths⟩ := map_eq_ok_iff.1 hpaths
    obtain ⟨hresults, hreported⟩ := Prod.mk.inj hpaths
    exact ⟨run, hrun, hresults, hreported, htally.2 run hrun⟩

end ArrowLint
