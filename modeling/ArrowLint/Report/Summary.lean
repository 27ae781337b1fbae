/-
  ArrowLint.Report.Summary

  The results of a run over several files, and the totals reported for them.
-/

import ArrowLint.Fix.Source

namespace ArrowLint

/-- The sum of `count` over `items`. -/
def total (count : α → Nat) (items : List α) : Nat :=
  (items.map count).foldr (· + ·) 0

/-- The `results` of checking files, and the paths of those that `failed` to be read. -/
structure CheckSummary where
  results : List LintResult
  failed : List String
  deriving DecidableEq

namespace CheckSummary

/-- The number of violations in all `results`. -/
def violationCount (s : CheckSummary) : Nat :=
  total (·.violations.length) s.results

/-- Whether `violationCount` is above zero. -/
def hasViolations (s : CheckSummary) : Bool :=
  0 < s.violationCount

/-- The `results` in which something is reported. -/
def reported (s : CheckSummary) : List LintResult :=
  s.results.filter (·.hasViolations)

end CheckSummary

/-- The `outcomes` of fixing files, and the paths of those that `failed` to be read. -/
structure FixSummary where
  outcomes : List FixOutcome
  failed : List String
  deriving DecidableEq

namespace FixSummary

/-- The number of `outcomes` that are `isChanged`. -/
def filesChanged (s : FixSummary) : Nat :=
  s.outcomes.countP (·.isChanged)

/-- The number of fixes made, over all `outcomes`. -/
def fixesApplied (s : FixSummary) : Nat :=
  total (·.applied) s.outcomes

/-- The number of violations still reported, over all `outcomes`. -/
def remaining (s : FixSummary) : Nat :=
  total (·.remaining.length) s.outcomes

/-- The outcomes worth a line: those that are `isChanged` or have violations `remaining`. -/
def reported (s : FixSummary) : List FixOutcome :=
  s.outcomes.filter fun o => o.isChanged || !o.remaining.isEmpty

end FixSummary

end ArrowLint
