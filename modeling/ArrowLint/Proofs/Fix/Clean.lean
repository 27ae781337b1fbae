/-
  ArrowLint.Proofs.Fix.Clean

  Sources on which nothing is reported. Fixing leaves such a source as it is; the other way
  round, fixing with nothing remaining has come to such a source, whatever the parser
  (`Linter.exists_lint_of_remaining_eq_nil`). So whether something is reported on a source can
  be told from the outcome of fixing it (`Linter.isSpotless_iff`).
-/

import ArrowLint.Proofs.Fallible
import ArrowLint.Proofs.Fix.Passes

namespace ArrowLint

/-- Whether an outcome has nothing `remaining` and is not `isChanged`. -/
def FixOutcome.IsSpotless (o : FixOutcome) : Prop :=
  o.remaining = [] ∧ o.isChanged = false

namespace Linter

variable {linter : Linter} {source path : String} {limit : Int}

/-- The outcome of `fixSource` is that of `fixPending` on what is reported on the source. -/
theorem fixSource_eq_ok {report : FixReport} (h : linter.fixSource source path limit = .ok report) :
    ∃ first rest, linter.lint source path = .ok first ∧
      linter.fixPending path limit.toNat source first.result.violations = .ok rest ∧
      report.outcome = rest.outcome ∧ report.passes = rest.passes := by
  unfold fixSource at h
  split at h
  · cases h
  · next first hfirst =>
    obtain ⟨rest, hrest, rfl⟩ := map_eq_ok_iff.1 h
    exact ⟨first, rest, hfirst, hrest, rfl, rfl⟩

/-- The outcome of `fixPending` on what is reported on the source is that of `fixSource`. -/
theorem fixSource_of_lint {limit : Int} {first : LintReport} {rest : FixReport}
    (h : linter.lint source path = .ok first)
    (hrest : linter.fixPending path limit.toNat source first.result.violations = .ok rest) :
    linter.fixSource source path limit = .ok { rest with log := first.log ++ rest.log } := by
  rw [fixSource, h]
  dsimp only
  rw [hrest]
  rfl

/-- With something `pending`, a pass that makes a fix hands on what is reported on its result, and
    one that makes none ends fixing with all of it remaining. -/
theorem fixPending_succ_eq_ok {limit : Nat} {pending : List Violation} {rest : FixReport}
    (hne : pending ≠ [])
    (h : linter.fixPending path (limit + 1) source pending = .ok rest) :
    ∃ fixed log next, applyFixes source (pending.map (·.fix)) = .ok fixed ∧
      rest = fixPending.continued source ⟨(pending.map (·.fix)).length, fixed⟩ log next ∧
      ((fixed.count = 0 ∧ next = fixPending.settled path fixed.text pending) ∨
        ∃ report, linter.lint fixed.text path = .ok report ∧
          linter.fixPending path limit fixed.text report.result.violations = .ok next) := by
  have hpending : pending.isEmpty = false := by simpa using hne
  rw [fixPending] at h
  simp only [hpending, Bool.false_eq_true, if_false] at h
  split at h
  · cases h
  · next fixed hfixed =>
    split at h
    · next hzero =>
      obtain rfl := Except.ok.inj h
      exact ⟨fixed, _, _, hfixed, rfl, .inl ⟨by simpa using hzero, rfl⟩⟩
    · split at h
      · cases h
      · next report hreport =>
        obtain ⟨next, hnext, rfl⟩ := map_eq_ok_iff.1 h
        exact ⟨fixed, _, next, hfixed, rfl, .inr ⟨report, hreport, hnext⟩⟩

/-- If `fixPending` leaves nothing remaining, nothing is reported on what it has `fixed`. -/
theorem exists_lint_of_remaining_eq_nil {limit : Nat} {report : LintReport} {rest : FixReport}
    (h : linter.lint source path = .ok report)
    (hrest : linter.fixPending path limit source report.result.violations = .ok rest)
    (hnil : rest.outcome.remaining = []) :
    ∃ last, linter.lint rest.outcome.fixed path = .ok last ∧ last.result.violations = [] := by
  -- on the limit, for all sources: a pass leaves another source to the passes after it
  induction limit generalizing source report rest with
  | zero =>
    obtain rfl := Except.ok.inj hrest
    exact ⟨report, h, hnil⟩
  | succ limit ih =>
    by_cases hne : report.result.violations = []
    · rw [hne, fixPending_nil] at hrest
      obtain rfl := Except.ok.inj hrest
      exact ⟨report, h, hne⟩
    · obtain ⟨fixed, log, next, -, rfl, ⟨-, rfl⟩ | ⟨last, hlast, hnext⟩⟩ :=
        fixPending_succ_eq_ok hne hrest
      · exact absurd hnil hne
      · obtain ⟨final, hfinal, hnone⟩ := ih hlast hnext hnil
        exact ⟨final, hfinal, hnone⟩

/-- The outcome of `fixPending` has the `source` that it started from. -/
theorem source_of_fixPending {limit : Nat} {pending : List Violation} {rest : FixReport}
    (h : linter.fixPending path limit source pending = .ok rest) :
    rest.outcome.source = source := by
  cases limit with
  | zero =>
    obtain rfl := Except.ok.inj h
    rfl
  | succ limit =>
    by_cases hne : pending = []
    · rw [hne, fixPending_nil] at h
      obtain rfl := Except.ok.inj h
      rfl
    · obtain ⟨fixed, log, next, -, rfl, -⟩ := fixPending_succ_eq_ok hne h
      rfl

/-- If `fixSource` leaves nothing remaining, nothing is reported on what it has `fixed`. -/
theorem exists_lint_fixed {report : FixReport}
    (h : linter.fixSource source path limit = .ok report) (hnil : report.outcome.remaining = []) :
    ∃ last, linter.lint report.outcome.fixed path = .ok last ∧ last.result.violations = [] := by
  obtain ⟨first, rest, hfirst, hrest, hout, -⟩ := fixSource_eq_ok h
  rw [hout] at hnil ⊢
  exact exists_lint_of_remaining_eq_nil hfirst hrest hnil

theorem fixed_eq_source {report : FixReport} (h : linter.fixSource source path limit = .ok report)
    (hsame : report.outcome.isChanged = false) : report.outcome.fixed = source := by
  obtain ⟨first, rest, -, hrest, hout, -⟩ := fixSource_eq_ok h
  rw [FixOutcome.isChanged, hout, source_of_fixPending hrest] at hsame
  rw [hout]
  simpa using hsame

/-- The outcome on a source on which nothing is reported `IsSpotless`. -/
theorem exists_fixSource_of_clean {report : LintReport} (h : linter.lint source path = .ok report)
    (hno : report.result.violations = []) (limit : Int) :
    ∃ fixed, linter.fixSource source path limit = .ok fixed ∧ fixed.outcome.IsSpotless := by
  unfold fixSource
  rw [h]
  dsimp only
  rw [hno, fixPending_nil]
  exact ⟨_, rfl, rfl, by simp [FixOutcome.isChanged, fixPending.settled]⟩

/-- The outcome on a source `IsSpotless` just when nothing is reported on the source. -/
theorem isSpotless_iff {report : FixReport} {first : LintReport}
    (hfirst : linter.lint source path = .ok first)
    (h : linter.fixSource source path limit = .ok report) :
    report.outcome.IsSpotless ↔ first.result.violations = [] := by
  constructor
  · rintro ⟨hremaining, hsame⟩
    obtain ⟨last, hlast, hnone⟩ := exists_lint_fixed h hremaining
    rw [fixed_eq_source h hsame, hfirst] at hlast
    rw [Except.ok.inj hlast]
    exact hnone
  · intro hnone
    obtain ⟨fixed, hfixed, hspotless⟩ := exists_fixSource_of_clean hfirst hnone limit
    obtain rfl := Except.ok.inj (h.symm.trans hfixed)
    exact hspotless

end Linter

end ArrowLint
