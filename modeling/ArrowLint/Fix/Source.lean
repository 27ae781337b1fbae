/-
  ArrowLint.Fix.Source

  Fixing one source until nothing is left to report. Every pass lints the text, makes the
  fixes that can be made at once and lints again; a limit bounds the number of passes.
-/

import ArrowLint.Lint
import ArrowLint.Fix.Splice

namespace ArrowLint

/-- Why a source cannot be fixed: a node lacks something (`node`), or a pass fails (`splice`). -/
inductive FixError where
  | node (e : NodeError)
  | splice (e : SpliceError)
  deriving DecidableEq

/-- What fixing has made of a `source`: the text `fixed`, and the counts that are reported. -/
structure FixOutcome where
  path : String
  source : String
  fixed : String
  /-- How many fixes have been made, over all `passes`. -/
  applied : Nat
  passes : Nat
  /-- What is still reported on `fixed`. -/
  remaining : List Violation
  deriving DecidableEq

/-- Whether `fixed` differs from `source`. -/
def FixOutcome.isChanged (o : FixOutcome) : Bool :=
  o.fixed != o.source

/-- One pass: how many fixes it was `offered`, and what it `fixed`. -/
structure Pass where
  offered : Nat
  fixed : Fixed
  deriving DecidableEq

/-- The `outcome` of fixing, the `passes` on the way to it, and what was put on record meanwhile. -/
structure FixReport where
  outcome : FixOutcome
  passes : List Pass
  log : List Record

namespace Linter

/-- The number of passes a source may take unless a project says otherwise. -/
def defaultLimit : Nat := 10

/-- Fixes a source on which `pending` is reported, in at most `limit` passes. -/
def fixPending (linter : Linter) (path : String) :
    (limit : Nat) → (source : String) → (pending : List Violation) → Except FixError FixReport
  | 0, source, pending => .ok (settled source pending)
  | limit + 1, source, pending =>
    if pending.isEmpty then .ok (settled source pending)
    else
      let fixes := pending.map (·.fix)
      match applyFixes source fixes with
      | .error e => .error (.splice e)
      | .ok fixed =>
        let log := (Selection.ofFixes fixes).log
        let pass := { offered := fixes.length, fixed := fixed }
        -- a pass that makes no fix leaves nothing for the next one to do better
        if fixed.count == 0 then
          .ok (continued source pass log (settled fixed.text pending))
        else
          match linter.lint fixed.text path with
          | .error e => .error (.node e)
          | .ok report =>
            (linter.fixPending path limit fixed.text report.result.violations).map
              (continued source pass (log ++ report.log))
where
  /-- The report of no pass at all: `source` stays as it is, with `pending` remaining. -/
  settled (source : String) (pending : List Violation) : FixReport :=
    { outcome := {
        path := path, source := source, fixed := source, applied := 0, passes := 0
        remaining := pending }
      passes := [], log := [] }
  /-- The report of one `pass` on `source` ahead of the `rest`, whose counts it adds to. -/
  continued (source : String) (pass : Pass) (log : List Record) (rest : FixReport) : FixReport :=
    { outcome := { rest.outcome with
        source := source
        applied := pass.fixed.count + rest.outcome.applied
        passes := 1 + rest.outcome.passes }
      passes := pass :: rest.passes
      log := log ++ rest.log }

/-- Fixes a source in at most `limit` passes; a limit below zero allows none. -/
def fixSource (linter : Linter) (source path : String) (limit : Int) :
    Except FixError FixReport :=
  match linter.lint source path with
  | .error e => .error (.node e)
  | .ok report =>
    (linter.fixPending path limit.toNat source report.result.violations).map fun rest =>
      { rest with log := report.log ++ rest.log }

end Linter

end ArrowLint
