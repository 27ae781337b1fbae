/-
  ArrowLint.Proofs.Report.Document

  What reports tell another program. A report is read as it is meant, and two reports on checked
  files are the same just when they tell the same: the number of violations, the files that could
  not be read, and of every file with violations its path and what there is to say of each of
  them (`CheckSummary.document_eq_iff`). No path, message or replacement can pass for another, or
  for a part of the report around it, and all of it is plain ASCII.
-/

import ArrowLint.Report.Document
import ArrowLint.Proofs.Value.Json

namespace ArrowLint

/-! ## Values -/

/-- What a report tells of a `Violation`, its line apart. -/
def Violation.told (v : Violation) : String × String × String × Fix :=
  (v.code, v.message, v.location, v.fix)

/-- What a report tells of the violations in a file. -/
def LintResult.told (r : LintResult) : String × List (String × String × String × Fix) :=
  (r.path, r.violations.map Violation.told)

/-- If `f` and `g` identify the same items, two lists have the same image under `f` just when they
    have the same under `g`. -/
theorem map_eq_map_iff_of_iff {α β γ : Type} {f : α → β} {g : α → γ}
    (h : ∀ a b, f a = f b ↔ g a = g b) (as bs : List α) :
    as.map f = bs.map f ↔ as.map g = bs.map g := by
  induction as generalizing bs with
  | nil => cases bs <;> simp
  | cons a as ih =>
    cases bs with
    | nil => simp
    | cons b bs => simp only [List.map_cons, List.cons.injEq, h a b, ih bs]

theorem Violation.value_eq_iff (v w : Violation) : v.value = w.value ↔ v.told = w.told := by
  obtain ⟨_, _, _, _, ⟨⟨_, _⟩, _⟩⟩ := v
  obtain ⟨_, _, _, _, ⟨⟨_, _⟩, _⟩⟩ := w
  simp [value, told, and_assoc]

theorem LintResult.value_eq_iff (r s : LintResult) : r.value = s.value ↔ r.told = s.told := by
  simp [value, told, map_eq_map_iff_of_iff Violation.value_eq_iff]

theorem Violation.keysDiffer_value (v : Violation) : v.value.KeysDiffer := by
  simp [value]

theorem LintResult.keysDiffer_value (r : LintResult) : r.value.KeysDiffer := by
  simp [value, Violation.keysDiffer_value]

theorem FixOutcome.keysDiffer_value (o : FixOutcome) : o.value.KeysDiffer := by
  simp [value, countValue]

/-! ## Reports -/

/-- The report of `fix` as a `Value`. -/
def FixSummary.value (s : FixSummary) : Value :=
  .table [
    ("files", .list (s.reported.map FixOutcome.value)),
    ("files_changed", countValue s.filesChanged),
    ("fixes_applied", countValue s.fixesApplied),
    ("remaining", countValue s.remaining),
    ("failed_files", .list (s.failed.map .text))]

/-- The `document` of a `FixSummary` is read back as its `value`. -/
theorem FixSummary.parse?_document (s : FixSummary) :
    Json.parse? s.document = some s.value :=
  Json.parse?_document_newline (by simp [countValue, FixOutcome.keysDiffer_value])

namespace CheckSummary

/-- The report of `check` as a `Value`. -/
def value (s : CheckSummary) : Value :=
  .table [
    ("files", .list (s.reported.map LintResult.value)),
    ("violation_count", countValue s.violationCount),
    ("failed_files", .list (s.failed.map .text))]

theorem keysDiffer_value (s : CheckSummary) : s.value.KeysDiffer := by
  simp [value, countValue, LintResult.keysDiffer_value]

/-- The `document` of a `CheckSummary` is read back as its `value`. -/
theorem parse?_document (s : CheckSummary) : Json.parse? s.document = some s.value :=
  Json.parse?_document_newline s.keysDiffer_value

theorem value_eq_iff (s t : CheckSummary) : s.value = t.value ↔
    s.violationCount = t.violationCount ∧ s.failed = t.failed ∧
      s.reported.map LintResult.told = t.reported.map LintResult.told := by
  have hfailed : s.failed.map Value.text = t.failed.map Value.text ↔ s.failed = t.failed :=
    List.map_inj_right fun _ _ h => Value.text.inj h
  simp only [value, countValue, Value.table.injEq, Value.list.injEq, Value.int.injEq,
    List.cons.injEq, Prod.mk.injEq, true_and, and_true, Int.natCast_inj, hfailed,
    map_eq_map_iff_of_iff LintResult.value_eq_iff]
  exact and_comm.trans and_assoc

/-- The `document` of a `CheckSummary` is plain ASCII, and it is the same for two summaries just
    when they agree on `violationCount`, on `failed`, and on what is `told` of the files with
    violations. -/
theorem document_eq_iff (s t : CheckSummary) :
    (∀ c ∈ s.document.toList, c.toNat < 0x80) ∧
      (s.document = t.document ↔ s.violationCount = t.violationCount ∧ s.failed = t.failed ∧
        s.reported.map LintResult.told = t.reported.map LintResult.told) := by
  constructor
  · show Json.IsAscii (Json.document s.value ++ "\n").toList
    rw [String.toList_append, Json.isAscii_append]
    exact ⟨Json.isAscii_document s.value, by simp⟩
  · show Json.document s.value ++ "\n" = Json.document t.value ++ "\n" ↔ _
    rw [String.append_left_inj, Json.document_inj s.keysDiffer_value t.keysDiffer_value,
      value_eq_iff]

end CheckSummary

end ArrowLint
