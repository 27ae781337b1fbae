/-
  ArrowLint.Report.Plain

  Reports for readers: a table of what was found or done, and a line with the totals.
-/

import ArrowLint.Registry.Basic
import ArrowLint.Report.Boxed
import ArrowLint.Report.Summary
import ArrowLint.Text.Line

namespace ArrowLint

/-- The table of all violations in `s.results`, each fix by its first line. -/
def CheckSummary.boxed (s : CheckSummary) : Boxed :=
  { title := "[PREFER-ARROW] Arrow Function Audit"
    columns := [⟨"Location", false⟩, ⟨"Message ID", false⟩, ⟨"Message", false⟩, ⟨"Fix", false⟩]
    rows := s.results.flatMap fun r => r.violations.map fun v =>
      [v.location, v.code, v.message, Text.headline v.fix.text] }

/-- The report on checked files, with its table drawn by `draw`. -/
def CheckSummary.plain (s : CheckSummary) (draw : Boxed → String := Boxed.render) : String :=
  if s.hasViolations then
    draw s.boxed ++ toString s.violationCount ++ " violation(s) in "
      ++ toString s.reported.length
      ++ " file(s). Run 'prefer-arrow fix' to apply the rewrites.\n"
  else
    "No arrow-convertible functions found in " ++ toString s.results.length ++ " file(s).\n"

/-- The table of the outcomes in `s.reported`, with their counts. -/
def FixSummary.boxed (s : FixSummary) : Boxed :=
  { title := "[PREFER-ARROW] Fix Summary"
    columns := [⟨"File", false⟩, ⟨"Applied", true⟩, ⟨"Passes", true⟩, ⟨"Remaining", true⟩]
    rows := s.reported.map fun o =>
      [o.path, toString o.applied, toString o.passes, toString o.remaining.length] }

/-- The report on fixed files, with its table drawn by `draw`. -/
def FixSummary.plain (s : FixSummary) (draw : Boxed → String := Boxed.render) : String :=
  (if s.reported.isEmpty then "" else draw s.boxed)
    ++ "Files changed: " ++ toString s.filesChanged ++ "  Fixes applied: "
    ++ toString s.fixesApplied ++ "  Remaining: " ++ toString s.remaining ++ "\n"

/-- The table that the command `rules` shows of the `rows` of a registry. -/
def RegistryRow.boxed (rows : List RegistryRow) : Boxed :=
  { title := "[PREFER-ARROW] Messages"
    columns := [⟨"Message ID", false⟩, ⟨"Name", false⟩, ⟨"Description", false⟩]
    rows := rows.map fun r => [r.id, r.name, r.description] }

end ArrowLint
