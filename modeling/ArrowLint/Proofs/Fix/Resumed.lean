/-
  ArrowLint.Proofs.Fix.Resumed

  Fixing in two runs. The passes of a run that is taken up where another one has ended are those
  that a single run under both limits together would have gone on with. So the single run comes to
  the same source with the same violations remaining, and its counts are the sums of theirs
  (`FixReport.Joins`). A run that has ended with nothing remaining leaves nothing to a further one,
  whatever the limits.
-/

import ArrowLint.Proofs.Fix.Depth

namespace ArrowLint

/-- Whether a run of fixing is the run `first` and then the run `second`. -/
structure FixReport.Joins (whole first second : FixReport) : Prop where
  fixed : whole.outcome.fixed = second.outcome.fixed
  remaining : whole.outcome.remaining = second.outcome.remaining
  passes : whole.outcome.passes = first.outcome.passes + second.outcome.passes
  applied : whole.outcome.applied = first.outcome.applied + second.outcome.applied
  trail : whole.passes = first.passes ++ second.passes

namespace FixReport.Joins

open Linter

/-- A run without passes adds nothing to the `rest`. -/
theorem settled (path source : String) (pending : List Violation) (rest : FixReport) :
    rest.Joins (fixPending.settled path source pending) rest :=
  { fixed := rfl, remaining := rfl, passes := (Nat.zero_add _).symm
    applied := (Nat.zero_add _).symm, trail := rfl }

/-- One `pass` more at the start of the first run is one more at the start of the whole. -/
theorem continued {whole first second : FixReport} (h : whole.Joins first second)
    (source : String) (pass : Pass) (log : List Record) :
    (fixPending.continued source pass log whole).Joins
      (fixPending.continued source pass log first) second :=
  { fixed := h.fixed
    remaining := h.remaining
    passes := by
      show 1 + whole.outcome.passes = 1 + first.outcome.passes + second.outcome.passes
      rw [h.passes, Nat.add_assoc]
    applied := by
      show pass.fixed.count + whole.outcome.applied
        = pass.fixed.count + first.outcome.applied + second.outcome.applied
      rw [h.applied, Nat.add_assoc]
    trail := congrArg (pass :: ·) h.trail }

end FixReport.Joins

namespace Linter

variable {linter : Linter} {source path : String}

/-- The passes under the limit `m + n` are those under `m` and then, from the source that they have
    come to, those under `n`. -/
theorem exists_fixPending_add (hp : linter.parser.IsFaithful) (m n : Nat) {report : LintReport}
    (h : linter.lint source path = .ok report) :
    ∃ first last second whole,
      linter.fixPending path m source report.result.violations = .ok first ∧
      linter.lint first.outcome.fixed path = .ok last ∧
      linter.fixPending path n first.outcome.fixed last.result.violations = .ok second ∧
      linter.fixPending path (m + n) source report.result.violations = .ok whole ∧
      whole.Joins first second := by
  -- on the first limit, for all sources: a pass leaves another source to the passes after it
  induction m generalizing source report with
  | zero =>
    obtain ⟨rest, hrest, -⟩ := exists_fixPending hp n h
    rw [Nat.zero_add]
    exact ⟨_, report, rest, rest, rfl, h, hrest, hrest, .settled ..⟩
  | succ m ih =>
    by_cases hne : report.result.violations = []
    · -- nothing is pending, for none of the three
      rw [hne, fixPending_nil, fixPending_nil]
      refine ⟨_, report, _, _, rfl, h, ?_, rfl, .settled ..⟩
      rw [hne]
      exact fixPending_nil ..
    · -- the first pass is the same under both limits, and makes a fix
      obtain ⟨fixed, hfixed, hcount⟩ := exists_applyFixes_pending hp h hne
      obtain ⟨next, hnext⟩ := exists_lint hp fixed.text path
      obtain ⟨pass, log, -, hpass⟩ := fixPending_succ hne hfixed hcount hnext
      obtain ⟨first, last, second, whole, hfirst, hlast, hsecond, hwhole, hjoins⟩ := ih hnext
      rw [Nat.add_right_comm, hpass, hpass, hfirst, hwhole]
      exact ⟨_, last, second, _, rfl, hlast, hsecond, rfl, hjoins.continued source pass log⟩

/-- With a faithful parser, fixing in at most `m` passes and then, taking up the source that this
    has come to, in at most `n` more is fixing in at most `m + n` passes. If nothing remains after
    the first run, every further run leaves its source as it is, in no pass. -/
theorem fixSource_add (linter : Linter) (hp : linter.parser.IsFaithful) (source path : String)
    (m n : Nat) :
    ∃ first second whole, linter.fixSource source path m = .ok first ∧
      linter.fixSource first.outcome.fixed path n = .ok second ∧
      linter.fixSource source path (m + n) = .ok whole ∧
      whole.Joins first second ∧
      (first.outcome.remaining = [] → ∀ limit : Int, ∃ further,
        linter.fixSource first.outcome.fixed path limit = .ok further ∧
        further.outcome.fixed = first.outcome.fixed ∧ further.outcome.remaining = [] ∧
        further.outcome.passes = 0 ∧ further.outcome.applied = 0) := by
  obtain ⟨report, hreport⟩ := exists_lint hp source path
  obtain ⟨first, last, second, whole, hfirst, hlast, hsecond, hwhole, hjoins⟩ :=
    exists_fixPending_add hp m n hreport
  have hm : linter.fixSource source path m
      = .ok { first with log := report.log ++ first.log } :=
    fixSource_of_lint hreport (by rwa [Int.toNat_natCast])
  refine ⟨_, _, _, hm, fixSource_of_lint hlast (by rwa [Int.toNat_natCast]),
    fixSource_of_lint hreport (by rwa [← Int.natCast_add, Int.toNat_natCast]), ?_, ?_⟩
  · exact { hjoins with }
  · intro hnil limit
    -- the source that the first run has come to is one on which nothing is reported
    obtain ⟨clean, hclean, hnone⟩ := exists_lint_fixed hm hnil
    have hlimit : linter.fixPending path limit.toNat first.outcome.fixed clean.result.violations
        = .ok (fixPending.settled path first.outcome.fixed []) := by
      rw [hnone, fixPending_nil]
    exact ⟨_, fixSource_of_lint hclean hlimit, rfl, rfl, rfl, rfl⟩

/-- Of the two functions of `tower 1` each of two runs of a single pass deals with one, as a run of
    two passes deals with both. -/
theorem fixSource_add_tower :
    (tower 1).parser.IsFaithful ∧ ∃ first second whole,
      (tower 1).fixSource "const f = function () \x7b return function () \x7b\x7d; \x7d;" "f.ts" 1
        = .ok first ∧
      (tower 1).fixSource first.outcome.fixed "f.ts" 1 = .ok second ∧
      (tower 1).fixSource "const f = function () \x7b return function () \x7b\x7d; \x7d;" "f.ts" 2
        = .ok whole ∧
      whole.Joins first second ∧ first.outcome.remaining.length = 1 ∧
      whole.outcome.remaining = [] := by
  have hfaithful : (tower 1).parser.IsFaithful := Parser.isFaithful_ofPhrases _
  have hp : ∀ k ≤ (Nest.tower 1).depth,
      (tower 1).Reads "f.ts" ((Nest.tower 1).stage .constant .unchanged k) :=
    reads_tower (by decide +kernel)
  obtain ⟨first, second, whole, hfirst, hsecond, hwhole, hjoins, -⟩ :=
    fixSource_add (tower 1) hfaithful
      "const f = function () \x7b return function () \x7b\x7d; \x7d;" "f.ts" 1 1
  have hdepth := fun limit => @exists_fixSource_nest (tower 1) _ _ _ Site.isOpen_constant
    (Nest.isConvertible_tower 1) limit fun k hk => hp k (Nat.le_min.1 hk).1
  obtain ⟨report, hreport, -, -, hone, -⟩ := hdepth 1
  obtain ⟨report', hreport', -, -, hnone, -⟩ := hdepth 2
  obtain rfl := Except.ok.inj (hfirst.symm.trans hreport)
  obtain rfl := Except.ok.inj (hwhole.symm.trans hreport')
  exact ⟨hfaithful, first, second, whole, hfirst, hsecond, hwhole, hjoins, hone,
    List.eq_nil_of_length_eq_zero hnone⟩

end Linter

end ArrowLint
