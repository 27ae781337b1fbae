/-
  ArrowLint.Proofs.Fix.Total

  Linting and fixing always come to an end with a result. With a faithful parser nothing that may
  fail does fail, be it the reading of a node, the descriptor of a function or the making of fixes
  (`Linter.exists_lint`, `Linter.exists_fixSource`); and every fix reaches over the node that it is
  reported for and stays in the source (`Rule.spans_node_of_check`).
-/

import ArrowLint.Proofs.Fix.Nesting
import ArrowLint.Proofs.Fix.Passes

namespace ArrowLint

open Node

namespace Rule

/-- The fix that is reported of `n` starts no later than `n` and ends no earlier, and it lies in the
    source. -/
theorem spans_node_of_check {rule : Rule} {path source : String} {n : Node} {v : Violation}
    (hp : n.whole.IsParseOf source) (h : rule.check path n = .ok (.violation v)) :
    0 ≤ v.fix.span.start ∧ v.fix.span.start ≤ n.start ∧ n.stop ≤ v.fix.span.stop ∧
      v.fix.span.stop ≤ (Bytes.ofText source).length := by
  obtain ⟨hstart, hstop, -⟩ := Span.fits_iff.1 (isPlacedIn_of_check hp h).fits
  obtain ⟨first, last, hr, hfirst, -⟩ := reaches_of_check h
  refine ⟨hstart, ?_, ?_, hstop⟩
  all_goals rw [hr.span]
  · -- the parent of a node starts no later than the node
    rcases hfirst with rfl | hparent
    · exact Int.le_refl _
    · have ho : first.whole.IsOrderly := by rw [whole_of_parent hparent]; exact hp.toIsOrderly
      exact Int.ofNat_le.2 (range_of_mem_children ho (mem_children_iff.2 hparent)).1
  · -- and it ends no earlier; nor does the fix end before it
    rcases hfirst with rfl | hparent
    · exact Int.ofNat_le.2 (hr.stop_le_stop hp.toIsOrderly)
    · have ho : first.whole.IsOrderly := by rw [whole_of_parent hparent]; exact hp.toIsOrderly
      have hinside := (range_of_mem_children ho (mem_children_iff.2 hparent)).2
      exact Int.ofNat_le.2 (Nat.le_trans hinside (hr.stop_le_stop ho))

end Rule

namespace Linter

variable {linter : Linter} {source path : String} {report : LintReport}

/-- The violations of a source are what `check` reports of the nodes of its tree. -/
theorem mem_violations_iff (h : linter.lint source path = .ok report) {v : Violation} :
    v ∈ report.result.violations ↔
      ∃ n ∈ (root (linter.parser (Grammar.ofPath path) source).tree).walk,
        linter.rule.check path n = .ok (.violation v) := by
  refine ⟨exists_check_of_lint h, fun ⟨n, hn, hcheck⟩ => ?_⟩
  obtain ⟨findings, hf, rfl⟩ := map_eq_ok_iff.1 h
  -- what is found at the node is one of the findings
  have hmem := List.mem_map_of_mem (f := linter.rule.check path) hn
  rw [hcheck, mapM_eq_ok_iff.1 hf] at hmem
  obtain ⟨finding, hfinding, heq⟩ := List.mem_map.1 hmem
  obtain rfl := Except.ok.inj heq
  exact List.mem_filterMap.2 ⟨_, hfinding, rfl⟩

/-- With a faithful parser neither `lint` nor `fixSource` fails, and every fix that is reported for
    a node reaches over the node and stays in the source. -/
theorem lint_and_fix_succeed (linter : Linter) (hp : linter.parser.IsFaithful)
    (source path : String) (limit : Int) :
    (∃ report, linter.lint source path = .ok report ∧
      (∀ v, v ∈ report.result.violations ↔
        ∃ n ∈ (root (linter.parser (Grammar.ofPath path) source).tree).walk,
          linter.rule.check path n = .ok (.violation v)) ∧
      ∀ n ∈ (root (linter.parser (Grammar.ofPath path) source).tree).walk, ∀ v,
        linter.rule.check path n = .ok (.violation v) →
        0 ≤ v.fix.span.start ∧ v.fix.span.start ≤ n.start ∧ n.stop ≤ v.fix.span.stop ∧
          v.fix.span.stop ≤ (Bytes.ofText source).length) ∧
    ∃ report, linter.fixSource source path limit = .ok report := by
  obtain ⟨report, hreport⟩ := exists_lint hp source path
  refine ⟨⟨report, hreport, fun v => mem_violations_iff hreport, fun n hn v hv => ?_⟩,
    exists_fixSource hp source path limit⟩
  have hwhole := whole_of_mem_walk hn
  exact Rule.spans_node_of_check (by rw [hwhole]; exact hp _ source) hv

/-- Linting and fixing `function f() {}`, of which all is replaced. -/
theorem lint_and_fix_emptyFunction :
    Parser.emptyFunction.IsFaithful ∧
    (∃ report v, lint ⟨⟨{}, .default⟩, .emptyFunction⟩ "function f() \x7b\x7d" "f.ts" = .ok report ∧
      report.result.violations = [v] ∧ 0 ≤ v.fix.span.start ∧ v.fix.span.start ≤ 0 ∧
      15 ≤ v.fix.span.stop ∧ v.fix.span.stop ≤ (Bytes.ofText "function f() \x7b\x7d").length) ∧
    ∃ report,
      fixSource ⟨⟨{}, .default⟩, .emptyFunction⟩ "function f() \x7b\x7d" "f.ts" 10 =
        .ok report := by
  obtain ⟨⟨report, hreport, -, hspans⟩, hfixed⟩ :=
    lint_and_fix_succeed ⟨⟨{}, .default⟩, .emptyFunction⟩ Parser.isFaithful_emptyFunction
      "function f() \x7b\x7d" "f.ts" 10
  refine ⟨Parser.isFaithful_emptyFunction, ?_, hfixed⟩
  refine ⟨_, _, rfl, rfl, hspans Node.emptyFunction ?_ _ rfl⟩
  exact List.mem_cons_of_mem _ List.mem_cons_self

end Linter

end ArrowLint
