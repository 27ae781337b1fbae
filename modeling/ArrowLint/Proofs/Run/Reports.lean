/-
  ArrowLint.Proofs.Run.Reports

  What a run over files finds. Both ways of going over files come to the same question, whether
  something is reported on the source of one of them (`Workspace.Reports`): a check answers it
  with its violations (`Workspace.exists_check`), and a run that has no file to change with the
  outcomes of fixing (`Workspace.exists_summary_of_isIdle`).
-/

import Mathlib.Data.List.Basic
import ArrowLint.Proofs.Fix.Clean
import ArrowLint.Proofs.Run.Plans

namespace ArrowLint

variable {w : Workspace} {mode : Workspace.FixMode} {s : FileStore} {file : Location}
  {files : List Location} {paths : List String} {plan : Workspace.Plan} {o : FixOutcome}

/-! ## Totals -/

theorem total_cons {α : Type} {count : α → Nat} (x : α) (items : List α) :
    total count (x :: items) = count x + total count items :=
  rfl

theorem total_pos_iff {α : Type} {count : α → Nat} {items : List α} :
    0 < total count items ↔ ∃ x ∈ items, 0 < count x := by
  induction items with
  | nil => simp [total]
  | cons x items ih =>
    rw [total_cons, Nat.add_pos_iff_pos_or_pos, ih, List.exists_mem_cons_iff]

theorem CheckSummary.hasViolations_iff {summary : CheckSummary} :
    summary.hasViolations = true ↔ ∃ r ∈ summary.results, r.violations ≠ [] := by
  simp only [hasViolations, decide_eq_true_eq, violationCount, total_pos_iff, List.length_pos_iff]

theorem FixSummary.remaining_pos_iff {summary : FixSummary} :
    0 < summary.remaining ↔ ∃ o ∈ summary.outcomes, o.remaining ≠ [] := by
  simp only [remaining, total_pos_iff, List.length_pos_iff]

theorem FixSummary.filesChanged_pos_iff {summary : FixSummary} :
    0 < summary.filesChanged ↔ ∃ o ∈ summary.outcomes, o.isChanged = true := by
  rw [filesChanged, List.countP_pos_iff]

namespace Workspace

/-- Whether something is reported on the source of one of `files`. -/
def Reports (w : Workspace) (s : FileStore) (files : List Location) : Prop :=
  ∃ file ∈ files, ∃ source report, s.readText file = .ok source ∧
    w.linter.lint source file.toText = .ok report ∧ report.result.violations ≠ []

/-! ## Checking -/

/-- Where every source can be linted, `checkFiles` has results, with violations just when
    `w.Reports` something. -/
theorem exists_checkFiles (h : ∀ file ∈ files, ∀ source, s.readText file = .ok source →
      ∃ report, w.linter.lint source file.toText = .ok report) :
    ∃ checked, w.checkFiles s files = .ok checked ∧
      ((∃ r ∈ checked.results, r.violations ≠ []) ↔ w.Reports s files) := by
  induction files with
  | nil => exact ⟨_, rfl, by simp [Reports]⟩
  | cons file files ih =>
    obtain ⟨rest, hrest, hiff⟩ := ih fun f hf => h f (List.mem_cons_of_mem file hf)
    rw [checkFiles, hrest]
    cases hread : s.readText file with
    | error e =>
      refine ⟨_, rfl, ?_⟩
      show (∃ r ∈ rest.results, r.violations ≠ []) ↔ _
      rw [hiff, Reports, Reports, List.exists_mem_cons_iff]
      simp [hread]
    | ok source =>
      obtain ⟨report, hreport⟩ := h file List.mem_cons_self source hread
      dsimp only
      rw [hreport]
      refine ⟨_, rfl, ?_⟩
      show (∃ r ∈ report.result :: rest.results, r.violations ≠ []) ↔ _
      rw [List.exists_mem_cons_iff, hiff, Reports, Reports, List.exists_mem_cons_iff]
      simp [hread, hreport]

/-- The summary of a `check` has violations just when `w.Reports` something on one of its
    sources. -/
theorem exists_check (h : ∀ file ∈ w.collect s paths, ∀ source, s.readText file = .ok source →
      ∃ report, w.linter.lint source file.toText = .ok report) :
    ∃ run, w.check s paths = .ok run ∧
      (run.summary.hasViolations = true ↔ w.Reports s (w.collect s paths)) := by
  obtain ⟨checked, hchecked, hiff⟩ := exists_checkFiles h
  refine ⟨_, by rw [check, hchecked]; rfl, ?_⟩
  rw [CheckSummary.hasViolations_iff]
  exact hiff

/-! ## Fixing with nothing to change -/

/-- Whether there is a plan for each of `files`, and no plan changes anything. -/
def IsIdle (w : Workspace) (mode : FixMode) (s : FileStore) (files : List Location) : Prop :=
  ∀ file ∈ files, ∃ plan, w.planFix mode s file = .ok plan ∧ plan.changes = []

/-- A run that `IsIdle` goes over all files, and leaves the store as it is. -/
theorem fixFiles_of_isIdle (h : w.IsIdle mode s files) :
    (w.fixFiles mode s files).error = none ∧ (w.fixFiles mode s files).changes = [] ∧
      (w.fixFiles mode s files).store = s ∧
      ∀ o, o ∈ (w.fixFiles mode s files).outcomes ↔
        ∃ file ∈ files, ∃ plan, w.planFix mode s file = .ok plan ∧ plan.outcome = some o := by
  induction files with
  | nil => exact ⟨rfl, rfl, rfl, by simp [fixFiles]⟩
  | cons file files ih =>
    obtain ⟨plan, hplan, hno⟩ := h file List.mem_cons_self
    obtain ⟨herror, hchanges, hstore, houtcomes⟩ :=
      ih fun f hf => h f (List.mem_cons_of_mem file hf)
    rw [fixFiles, hplan]
    dsimp only
    rw [hno]
    refine ⟨herror, hchanges, hstore, fun o => ?_⟩
    show o ∈ plan.outcome.toList ++ _ ↔ _
    rw [List.mem_append, Option.mem_toList, List.exists_mem_cons_iff]
    exact or_congr (by simp [hplan]) (houtcomes o)

/-- The outcome of a plan is not `IsSpotless` just when something is reported on the source. -/
theorem not_isSpotless_iff (hplan : w.planFix mode s file = .ok plan) :
    (∃ o, plan.outcome = some o ∧ ¬o.IsSpotless) ↔
      ∃ source report, s.readText file = .ok source ∧
        w.linter.lint source file.toText = .ok report ∧ report.result.violations ≠ [] := by
  rcases planFix_eq_ok hplan with ⟨e, hread, hno, -⟩ | ⟨source, report, hread, hfix, hout, -⟩
  · simp [hread, hno]
  · obtain ⟨first, rest, hfirst, -, -⟩ := Linter.fixSource_eq_ok hfix
    have hiff := Linter.isSpotless_iff hfirst hfix
    simp [hread, hout, hfirst, hiff]

/-- A run that `IsIdle` has an outcome that is not spotless just when `w.Reports` something on one
    of the sources. -/
theorem exists_summary_of_isIdle (h : w.IsIdle mode s (w.collect s paths)) :
    ∃ summary, (w.fix mode s paths).summary = .ok summary ∧ (w.fix mode s paths).changes = [] ∧
      (w.fix mode s paths).store = s ∧
      ((∃ o ∈ summary.outcomes, ¬o.IsSpotless) ↔ w.Reports s (w.collect s paths)) := by
  obtain ⟨herror, hchanges, hstore, houtcomes⟩ := fixFiles_of_isIdle h
  unfold fix
  dsimp only
  rw [herror]
  refine ⟨_, rfl, hchanges, hstore, ?_⟩
  dsimp only
  simp only [houtcomes, Reports]
  constructor
  · rintro ⟨o, ⟨file, hf, plan, hplan, ho⟩, hspot⟩
    exact ⟨file, hf, (not_isSpotless_iff hplan).1 ⟨o, ho, hspot⟩⟩
  · rintro ⟨file, hf, hreported⟩
    obtain ⟨plan, hplan, -⟩ := h file hf
    obtain ⟨o, ho, hspot⟩ := (not_isSpotless_iff hplan).2 hreported
    exact ⟨o, ⟨file, hf, plan, hplan, ho⟩, hspot⟩

end Workspace

end ArrowLint
