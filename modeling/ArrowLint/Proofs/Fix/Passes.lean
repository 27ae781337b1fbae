/-
  ArrowLint.Proofs.Fix.Passes

  Fixing pass by pass. With a faithful parser no pass fails and every pass makes a fix
  (`Linter.exists_applyFixes_pending`), so the exit for a pass without one is never taken and
  what is pending is at all times what linting the text at hand reports. From this,
  `Linter.exists_fixPending` goes through the passes by induction on their limit.
-/

import ArrowLint.Fix.Source
import ArrowLint.Proofs.Fix.Range

namespace ArrowLint

/-- Whether fixing has ended as it should within `limit` passes: what remains is what is reported on
    the fixed source, each pass has made a fix, and only the limit has kept it from more. -/
structure FixOutcome.IsSettled (o : FixOutcome) (linter : Linter) (limit : Nat) : Prop where
  remaining : ∃ report, linter.lint o.fixed o.path = .ok report ∧
    o.remaining = report.result.violations
  passes_le_limit : o.passes ≤ limit
  passes_le_applied : o.passes ≤ o.applied
  finished : o.remaining = [] ∨ o.passes = limit

namespace Linter

variable {linter : Linter} {source path : String}

/-- A pass over what is reported on a source makes at least one fix. -/
theorem exists_applyFixes_pending {report : LintReport} (hp : linter.parser.IsFaithful)
    (h : linter.lint source path = .ok report) (hne : report.result.violations ≠ []) :
    ∃ fixed, applyFixes source (report.result.violations.map (·.fix)) = .ok fixed ∧
      0 < fixed.count := by
  refine exists_applyFixes_of_isPlacedIn (by simpa using hne) fun f hf => ?_
  obtain ⟨v, hv, rfl⟩ := List.mem_map.1 hf
  exact isPlacedIn_of_lint hp h v hv

theorem fixPending_nil (linter : Linter) (path : String) (limit : Nat) (source : String) :
    linter.fixPending path limit source [] = .ok (fixPending.settled path source []) := by
  cases limit with
  | zero => rfl
  | succ limit => rfl

/-- One pass that makes a fix: what is reported on its outcome is left to the passes after it. The
    `pass` is the same under every limit. -/
theorem fixPending_succ {pending : List Violation} {fixed : Fixed} {report : LintReport}
    (hne : pending ≠ []) (hfixed : applyFixes source (pending.map (·.fix)) = .ok fixed)
    (hcount : 0 < fixed.count) (hlint : linter.lint fixed.text path = .ok report) :
    ∃ pass log, pass.fixed = fixed ∧
      ∀ limit, linter.fixPending path (limit + 1) source pending
        = (linter.fixPending path limit fixed.text report.result.violations).map
          (fixPending.continued source pass log) := by
  refine ⟨{ offered := (pending.map (·.fix)).length, fixed := fixed },
    (Selection.ofFixes (pending.map (·.fix))).log ++ report.log, rfl, fun limit => ?_⟩
  have hpending : pending.isEmpty = false := by
    rw [Bool.eq_false_iff]
    simpa using hne
  have hzero : (fixed.count == 0) = false := by
    rw [Bool.eq_false_iff]
    simp only [ne_eq, beq_iff_eq]
    omega
  rw [fixPending]
  simp only [hpending, hfixed, hzero, hlint, Bool.false_eq_true, if_false]

/-- From a source on which `report` has been made, the outcome of `fixPending` `IsSettled`. -/
theorem exists_fixPending {report : LintReport} (hp : linter.parser.IsFaithful) (limit : Nat)
    (h : linter.lint source path = .ok report) :
    ∃ rest, linter.fixPending path limit source report.result.violations = .ok rest ∧
      rest.outcome.path = path ∧ rest.outcome.IsSettled linter limit := by
  -- on the limit, for all sources: a pass leaves another source to the passes after it
  induction limit generalizing source report with
  | zero =>
    exact ⟨_, rfl, rfl, ⟨report, h, rfl⟩, Nat.le_refl 0, Nat.le_refl 0, .inr rfl⟩
  | succ limit ih =>
    by_cases hne : report.result.violations = []
    · -- nothing is reported, so the source stays
      rw [hne, fixPending_nil]
      exact ⟨_, rfl, rfl, ⟨report, h, hne.symm⟩, Nat.zero_le _, Nat.le_refl 0, .inl rfl⟩
    · obtain ⟨fixed, hfixed, hcount⟩ := exists_applyFixes_pending hp h hne
      obtain ⟨next, hnext⟩ := exists_lint hp fixed.text path
      obtain ⟨pass, log, hpass, heq⟩ := fixPending_succ hne hfixed hcount hnext
      obtain ⟨rest, hrest, hpath, hsettled⟩ := ih hnext
      rw [heq limit, hrest]
      -- one pass more, and by its count at least one fix more
      have happlied := hsettled.passes_le_applied
      have hlimit := hsettled.passes_le_limit
      refine ⟨_, rfl, hpath, hsettled.remaining, ?_, ?_, ?_⟩
      · show 1 + rest.outcome.passes ≤ limit + 1
        omega
      · show 1 + rest.outcome.passes ≤ pass.fixed.count + rest.outcome.applied
        rw [hpass]
        omega
      · show rest.outcome.remaining = [] ∨ 1 + rest.outcome.passes = limit + 1
        rcases hsettled.finished with hr | hl
        · exact .inl hr
        · exact .inr (by omega)

/-- With a faithful parser `fixSource` has a report for every source. -/
theorem exists_fixSource (hp : linter.parser.IsFaithful) (source path : String) (limit : Int) :
    ∃ report, linter.fixSource source path limit = .ok report := by
  obtain ⟨first, hfirst⟩ := exists_lint hp source path
  obtain ⟨rest, hrest, -⟩ := exists_fixPending hp limit.toNat hfirst
  unfold fixSource
  rw [hfirst]
  exact exists_map_eq_ok _ ⟨rest, hrest⟩

/-- With a faithful parser `fixSource` has an outcome for every source and every limit. What remains
    is what is reported on the fixed source; there are no more passes than allowed or than fixes
    made; passes end for want of reports or at the limit; and a source that has come through
    unchanged with nothing remaining has taken no pass. -/
theorem fixSource_spec (linter : Linter) (hp : linter.parser.IsFaithful) (source path : String)
    (limit : Int) :
    ∃ report last, linter.fixSource source path limit = .ok report ∧
      linter.lint report.outcome.fixed path = .ok last ∧
      report.outcome.remaining = last.result.violations ∧
      (report.outcome.passes : Int) ≤ max limit 0 ∧
      report.outcome.passes ≤ report.outcome.applied ∧
      (report.outcome.remaining = [] ∨ (report.outcome.passes : Int) = max limit 0) ∧
      (report.outcome.fixed = source → report.outcome.remaining = [] →
        report.outcome.passes = 0 ∧ report.outcome.applied = 0) := by
  obtain ⟨first, hfirst⟩ := exists_lint hp source path
  obtain ⟨rest, hrest, hpath, hsettled⟩ := exists_fixPending hp limit.toNat hfirst
  obtain ⟨last, hlast, hremaining⟩ := hsettled.remaining
  rw [hpath] at hlast
  have hlimit := hsettled.passes_le_limit
  refine ⟨{ rest with log := first.log ++ rest.log }, last, ?_, hlast, hremaining, ?_,
    hsettled.passes_le_applied, ?_, ?_⟩
  · unfold fixSource
    rw [hfirst]
    show Except.map _ _ = _
    rw [hrest]
    rfl
  · show (rest.outcome.passes : Int) ≤ max limit 0
    omega
  · rcases hsettled.finished with hr | hl
    · exact .inl hr
    · refine .inr ?_
      show (rest.outcome.passes : Int) = max limit 0
      omega
  · intro hsame hnone
    -- nothing is reported on the fixed source, which is the source itself
    rw [show rest.outcome.fixed = source from hsame, hfirst] at hlast
    obtain rfl := Except.ok.inj hlast
    rw [← hremaining, show rest.outcome.remaining = [] from hnone, fixPending_nil] at hrest
    obtain rfl := Except.ok.inj hrest
    exact ⟨rfl, rfl⟩

/-- Fixing `function f() {}`, on which the function is reported. -/
theorem fixSource_emptyFunction :
    Parser.emptyFunction.IsFaithful ∧
    (∃ first v, lint ⟨⟨{}, .default⟩, .emptyFunction⟩ "function f() \x7b\x7d" "f.ts" = .ok first ∧
      first.result.violations = [v]) ∧
    ∃ report last,
      fixSource ⟨⟨{}, .default⟩, .emptyFunction⟩ "function f() \x7b\x7d" "f.ts" 10 = .ok report ∧
      lint ⟨⟨{}, .default⟩, .emptyFunction⟩ report.outcome.fixed "f.ts" = .ok last ∧
      report.outcome.remaining = last.result.violations ∧ report.outcome.passes ≤ 10 ∧
      report.outcome.passes ≤ report.outcome.applied := by
  obtain ⟨report, last, hreport, hlast, hremaining, hlimit, happlied, -, -⟩ :=
    fixSource_spec ⟨⟨{}, .default⟩, .emptyFunction⟩ Parser.isFaithful_emptyFunction
      "function f() \x7b\x7d" "f.ts" 10
  refine ⟨Parser.isFaithful_emptyFunction, ⟨_, _, rfl, rfl⟩, report, last, hreport, hlast,
    hremaining, ?_, happlied⟩
  omega

end Linter

end ArrowLint
