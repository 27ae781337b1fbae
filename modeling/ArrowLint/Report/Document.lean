/-
  ArrowLint.Report.Document

  Reports for other programs: one JSON document a run.
-/

import ArrowLint.Report.Summary
import ArrowLint.Value.Json

namespace ArrowLint

/-- A count as a `Value`. -/
def countValue (n : Nat) : Value :=
  .int n

/-- A `Violation` as a table, its fields under the names they have in documents. -/
def Violation.value (v : Violation) : Value :=
  .table [
    ("code", .text v.code),
    ("message", .text v.message),
    ("location", .text v.location),
    ("fix", .table [
      ("range", .list [.int v.fix.span.start, .int v.fix.span.stop]),
      ("text", .text v.fix.text)])]

/-- The violations in a file as a table, under the file's `path`. -/
def LintResult.value (r : LintResult) : Value :=
  .table [
    ("file", .text r.path),
    ("violations", .list (r.violations.map Violation.value))]

/-- A `FixOutcome` as a table, under the file's path, with what remains as values. -/
def FixOutcome.value (o : FixOutcome) : Value :=
  .table [
    ("file", .text o.path),
    ("applied", countValue o.applied),
    ("passes", countValue o.passes),
    ("remaining", countValue o.remaining.length)]

/-- The report of `check` in JSON: the `reported` results, their total and the files that failed. -/
def CheckSummary.document (s : CheckSummary) : String :=
  Json.document (.table [
    ("files", .list (s.reported.map LintResult.value)),
    ("violation_count", countValue s.violationCount),
    ("failed_files", .list (s.failed.map .text))]) ++ "\n"

/-- The report of `fix` in JSON: the `reported` outcomes, their totals and the files that failed. -/
def FixSummary.document (s : FixSummary) : String :=
  Json.document (.table [
    ("files", .list (s.reported.map FixOutcome.value)),
    ("files_changed", countValue s.filesChanged),
    ("fixes_applied", countValue s.fixesApplied),
    ("remaining", countValue s.remaining),
    ("failed_files", .list (s.failed.map .text))]) ++ "\n"

end ArrowLint
