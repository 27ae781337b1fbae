/-
  ArrowLint.Proofs.Fix.Nesting

  Fixes on one tree do not cut across one another. A fix takes the place of a node, and of the
  semicolon behind it where that is written and the node is the member of a class. So the range of
  a fix is the range of a node and a little more (`Fix.Reaches`), and

    * a fix for a node inside that node lies in it (`Fix.Reaches.isWithin`);
    * a fix for a node behind it starts where it has ended or later, since there is nothing below
      a semicolon (`Fix.Reaches.stop_le_start`).

  With that, one pass over what is reported on a tree makes the outermost fixes
  (`Linter.lint_spans_nest`).
-/

import ArrowLint.Proofs.Fix.Outermost
import ArrowLint.Proofs.Fix.Range
import ArrowLint.Proofs.Syntax.Nesting

namespace ArrowLint

open Node

/-- Whether the semicolons of a tree have no `children`. -/
def Tree.HasBareSemicolons (t : Tree) : Prop :=
  ∀ n ∈ (root t).walk, n.kind = .semicolon → n.children = []

theorem Node.isWrittenSemicolon_iff {n : Node} :
    n.isWrittenSemicolon = true ↔ n.kind = .semicolon ∧ n.start < n.stop := by
  simp [isWrittenSemicolon]

/-- A semicolon `Contains` itself and nothing else. -/
theorem Node.Contains.eq_of_semicolon {n m : Node} (h : n.Contains m)
    (hs : n.whole.HasBareSemicolons) (hk : n.kind = .semicolon) : m = n := by
  cases h with
  | self => rfl
  | inside hc _ =>
    rw [hs n n.mem_walk_root hk] at hc
    cases hc

/-! ## Two fixes on one tree -/

namespace Fix.Reaches

variable {f g : Fix} {first last first' last' m p : Node}

/-- A fix that `Reaches` from `first` to `last` does not end before `first` does. -/
theorem stop_le_stop (hf : f.Reaches first last) (ho : first.whole.IsOrderly) :
    first.stop ≤ last.stop := by
  rcases hf.last with rfl | ⟨hnext, hw⟩
  · exact Nat.le_refl _
  · have hbehind := stop_le_start_nextSibling ho hnext
    have hfilled := (isWrittenSemicolon_iff.1 hw).2
    omega

/-- A fix for a child does not end behind its `parent`. -/
theorem stop_le_parent (hf : f.Reaches first last) (ho : first.whole.IsOrderly)
    (hp : first.parent = some p) : last.stop ≤ p.stop := by
  have hpo : p.whole.IsOrderly := by rwa [whole_of_parent hp]
  rcases hf.last with rfl | ⟨hnext, -⟩
  · exact (range_of_mem_children hpo (mem_children_iff.2 hp)).2
  · obtain ⟨q, before, after, hq, hc⟩ := children_of_nextSibling hnext
    obtain rfl := Option.some.inj (hp.symm.trans hq)
    exact (range_of_mem_children hpo (by rw [hc]; simp)).2

/-- A fix for a node properly inside another node `IsWithin` a fix for that one. -/
theorem isWithin (hf : f.Reaches first last) (hg : g.Reaches first' last')
    (ho : first.whole.IsOrderly) (h : first.Contains first') (hne : first' ≠ first) :
    g.span.IsWithin f.span := by
  have ho' : first'.whole.IsOrderly := by rwa [h.whole_eq]
  rcases h.eq_or_exists_parent with heq | ⟨p, hp, hparent⟩
  · exact absurd heq hne
  · -- it ends within the parent, which the other node contains
    have hstart := (h.range ho).1
    have hparent := hg.stop_le_parent ho' hparent
    have hinside := (hp.range ho).2
    have hend := hf.stop_le_stop ho
    rw [hf.span, hg.span, Span.IsWithin]
    dsimp only
    omega

/-- A fix for `first` has ended when a node behind it starts, unless that is a semicolon. -/
theorem stop_le_start (hf : f.Reaches first last) (ho : first.whole.IsOrderly)
    (hs : first.whole.HasBareSemicolons) (h : first.IsAhead m) (hm : m.kind ≠ .semicolon) :
    last.stop ≤ m.start := by
  rcases hf.last with rfl | ⟨hnext, hw⟩
  · exact h.stop_le_start ho
  · obtain ⟨p, before, a, after, b, hb, hc, ha, hbm⟩ := h
    have hpa : a.whole = p.whole := whole_of_mem_children (by rw [hc]; simp)
    have hpb : b.whole = p.whole := whole_of_mem_children (by rw [hc]; simp [hb])
    have hpf : first.whole = p.whole := by rw [ha.whole_eq, hpa]
    rw [hpf] at ho hs
    have hbstart := (hbm.range (by rwa [hpb])).1
    rcases ha.eq_or_exists_parent with rfl | ⟨q, hq, hparent⟩
    · -- the semicolon is the next child, and what starts behind the node is not it
      obtain ⟨rest, rfl⟩ := List.head?_eq_some_iff.1 ((nextSibling_of_children hc).symm.trans hnext)
      rcases List.mem_cons.1 hb with rfl | hb
      · have hk := (isWrittenSemicolon_iff.1 hw).1
        obtain rfl := hbm.eq_of_semicolon (by rwa [hpb]) hk
        exact absurd hk hm
      · have hsplit : p.children = (before ++ [first]) ++ last :: rest := by simp [hc]
        have hbehind := stop_le_start_of_children ho hsplit hb
        omega
    · -- the semicolon lies in the same child as the node
      have hparent := hf.stop_le_parent (by rwa [hpf]) hparent
      have hinside := (hq.range (by rwa [hpa])).2
      have hbehind := stop_le_start_of_children ho hc hb
      omega

/-- Fixes for nodes of one tree that `IsOrderly` are nested or apart. -/
theorem isNestedOrApart (hf : f.Reaches first last) (hg : g.Reaches first' last')
    (hwhole : first'.whole = first.whole) (ho : first.whole.IsOrderly)
    (hs : first.whole.HasBareSemicolons) (hk : first.kind ≠ .semicolon)
    (hk' : first'.kind ≠ .semicolon) : f.span.IsNestedOrApart g.span := by
  have ho' : first'.whole.IsOrderly := by rwa [hwhole]
  have hs' : first'.whole.HasBareSemicolons := by rwa [hwhole]
  by_cases hsame : first' = first
  · -- of two ranges with one start, the shorter lies in the longer
    rw [hf.span, hg.span, hsame]
    unfold Span.IsNestedOrApart Span.IsWithin
    dsimp only
    omega
  · have hbelow : (root first.whole).Contains first := first.root_contains
    have hbelow' : (root first.whole).Contains first' := hwhole ▸ first'.root_contains
    rcases hbelow.total hbelow' with h | h | h | h
    · exact .inr (.inl (hf.isWithin hg ho h hsame))
    · exact .inl (hg.isWithin hf ho' h (Ne.symm hsame))
    · refine .inr (.inr (.inl ?_))
      rw [hf.span, hg.span]
      exact Int.ofNat_le.2 (hf.stop_le_start ho hs h hk')
    · refine .inr (.inr (.inr ?_))
      rw [hf.span, hg.span]
      exact Int.ofNat_le.2 (hg.stop_le_start ho' hs' h hk)

end Fix.Reaches

/-! ## What is reported on one tree -/

namespace Linter

variable {linter : Linter} {source path : String} {report : LintReport}

/-- Every violation is found at a node of the tree, where `check` reports it. -/
theorem exists_check_of_lint (h : linter.lint source path = .ok report) {v : Violation}
    (hv : v ∈ report.result.violations) :
    ∃ n ∈ (root (linter.parser (Grammar.ofPath path) source).tree).walk,
      linter.rule.check path n = .ok (.violation v) := by
  obtain ⟨findings, hf, rfl⟩ := map_eq_ok_iff.1 h
  exact exists_of_mem_of_mapM_eq_ok hf (exists_of_mem_violationsOf hv)

theorem isNestedOrApart_of_lint
    (ho : (linter.parser (Grammar.ofPath path) source).tree.IsOrderly)
    (hs : (linter.parser (Grammar.ofPath path) source).tree.HasBareSemicolons)
    (h : linter.lint source path = .ok report) {v w : Violation}
    (hv : v ∈ report.result.violations) (hw : w ∈ report.result.violations) :
    v.fix.span.IsNestedOrApart w.fix.span := by
  -- both are found in the one tree that has been linted
  have found : ∀ u ∈ report.result.violations, ∃ first last, u.fix.Reaches first last ∧
      first.kind ≠ .semicolon ∧
      first.whole = (linter.parser (Grammar.ofPath path) source).tree := by
    intro u hu
    obtain ⟨n, hn, hcheck⟩ := exists_check_of_lint h hu
    obtain ⟨first, last, hr, hfirst, hk⟩ := Rule.reaches_of_check hcheck
    refine ⟨first, last, hr, hk, ?_⟩
    rcases hfirst with rfl | hparent
    · rw [whole_of_mem_walk hn, whole_root]
    · rw [whole_of_parent hparent, whole_of_mem_walk hn, whole_root]
  obtain ⟨first, last, hf, hk, hwhole⟩ := found v hv
  obtain ⟨first', last', hg, hk', hwhole'⟩ := found w hw
  exact hf.isNestedOrApart hg (hwhole'.trans hwhole.symm) (by rwa [hwhole]) (by rwa [hwhole]) hk hk'

theorem start_nonneg_of_lint (h : linter.lint source path = .ok report) {v : Violation}
    (hv : v ∈ report.result.violations) : 0 ≤ v.fix.span.start := by
  obtain ⟨n, -, hcheck⟩ := exists_check_of_lint h hv
  obtain ⟨first, last, hr, -⟩ := Rule.reaches_of_check hcheck
  rw [hr.span]
  exact Int.natCast_nonneg _

/-- The ranges that are reported on a tree that `IsOrderly` are nested or apart. If no two of them
    are the same and none is empty, one pass makes just the fixes that are `IsOutermost`, and each
    fix that it defers lies in one that it makes. -/
theorem lint_spans_nest (linter : Linter) (source path : String) {report : LintReport}
    (ho : (linter.parser (Grammar.ofPath path) source).tree.IsOrderly)
    (hs : (linter.parser (Grammar.ofPath path) source).tree.HasBareSemicolons)
    (h : linter.lint source path = .ok report) :
    (∀ v ∈ report.result.violations, ∀ w ∈ report.result.violations,
      v.fix.span.IsNestedOrApart w.fix.span) ∧
    ((report.result.violations.map (·.fix.span)).Nodup →
      (∀ v ∈ report.result.violations, v.fix.span.IsFilled) →
      let fixes := report.result.violations.map (·.fix)
      (∀ f, f ∈ (Selection.ofFixes fixes).taken ↔ f ∈ fixes ∧ f.IsOutermost fixes) ∧
      ∀ f ∈ (Selection.ofFixes fixes).deferred, ∃ g ∈ (Selection.ofFixes fixes).taken,
        f.span.IsWithin g.span) := by
  have hnested : ∀ v ∈ report.result.violations, ∀ w ∈ report.result.violations,
      v.fix.span.IsNestedOrApart w.fix.span :=
    fun v hv w hw => isNestedOrApart_of_lint ho hs h hv hw
  refine ⟨hnested, fun hnodup hfilled => ?_⟩
  -- what is said of the violations holds of their fixes
  have hnested' : ∀ f ∈ report.result.violations.map (·.fix),
      ∀ g ∈ report.result.violations.map (·.fix), f.span.IsNestedOrApart g.span := by
    simpa using hnested
  have hfilled' : ∀ f ∈ report.result.violations.map (·.fix), f.span.IsFilled := by
    simpa using hfilled
  have hstart : ∀ f ∈ report.result.violations.map (·.fix), 0 ≤ f.span.start := by
    simpa using fun v hv => start_nonneg_of_lint h hv
  have hnodup' : ((report.result.violations.map (·.fix)).map (·.span)).Nodup := by
    rwa [List.map_map]
  exact ⟨fun f => Selection.mem_taken_iff_isOutermost hnested' hstart hfilled' hnodup',
    fun f hf => Selection.exists_taken_of_mem_deferred hnested' hstart hf⟩

end Linter

/-! ## A function in a member -/

/-- The tree of `class A{m(){function f(){}};}`. -/
def Tree.functionInMember : Tree :=
  program "class A\x7bm()\x7bfunction f()\x7b\x7d\x7d;\x7d" [
    .node (.ofText (.other "class_declaration") true 0
        "class A\x7bm()\x7bfunction f()\x7b\x7d\x7d;\x7d" []) [
      .node (.ofText (.other "class") false 0 "class" []) [],
      .node (.ofText (.other "type_identifier") true 6 "A" [.name]) [],
      .node (.ofText .classBody true 7 "\x7bm()\x7bfunction f()\x7b\x7d\x7d;\x7d" [.body]) [
        .node (.ofText (.other "\x7b") false 7 "\x7b" []) [],
        .node (.ofText .methodDefinition true 8 "m()\x7bfunction f()\x7b\x7d\x7d" []) [
          .node (.ofText .propertyIdentifier true 8 "m" [.name]) [],
          .node (.ofText (.other "formal_parameters") true 9 "()" [.parameters]) [
            .node (.ofText (.other "(") false 9 "(" []) [],
            .node (.ofText (.other ")") false 10 ")" []) []],
          .node (.ofText .statementBlock true 11 "\x7bfunction f()\x7b\x7d\x7d" [.body]) [
            .node (.ofText (.other "\x7b") false 11 "\x7b" []) [],
            .node (.ofText .functionDeclaration true 12 "function f()\x7b\x7d" []) [
              .node (.ofText (.other "function") false 12 "function" []) [],
              .node (.ofText .identifier true 21 "f" [.name]) [],
              .node (.ofText (.other "formal_parameters") true 22 "()" [.parameters]) [
                .node (.ofText (.other "(") false 22 "(" []) [],
                .node (.ofText (.other ")") false 23 ")" []) []],
              .node (.ofText .statementBlock true 24 "\x7b\x7d" [.body]) [
                .node (.ofText (.other "\x7b") false 24 "\x7b" []) [],
                .node (.ofText (.other "\x7d") false 25 "\x7d" []) []]],
            .node (.ofText (.other "\x7d") false 26 "\x7d" []) []]],
        .node (.ofText .semicolon false 27 ";" []) [],
        .node (.ofText (.other "\x7d") false 28 "\x7d" []) []]]]

theorem Tree.isParseOf_functionInMember :
    functionInMember.IsParseOf "class A\x7bm()\x7bfunction f()\x7b\x7d\x7d;\x7d" := by decide

theorem Tree.hasBareSemicolons_functionInMember : functionInMember.HasBareSemicolons := by
  unfold HasBareSemicolons
  decide

/-- The linter with `classPropertiesAllowed`, and a parser that gives the tree
    `functionInMember`. -/
def Linter.functionInMember : Linter :=
  ⟨⟨{ classPropertiesAllowed := true }, .default⟩, fun _ _ => ⟨.functionInMember, false⟩⟩

/-- The member is replaced together with the semicolon behind it, and the function in it is
    deferred. -/
theorem Linter.lint_spans_functionInMember :
    Tree.functionInMember.IsOrderly ∧ Tree.functionInMember.HasBareSemicolons ∧
    ∃ report v w, Linter.functionInMember.lint "class A\x7bm()\x7bfunction f()\x7b\x7d\x7d;\x7d"
        "f.ts" = .ok report ∧
      report.result.violations = [v, w] ∧ v.fix.span = ⟨8, 28⟩ ∧ w.fix.span = ⟨12, 26⟩ ∧
      v.fix.span.IsNestedOrApart w.fix.span ∧
      v.fix ∈ (Selection.ofFixes [v.fix, w.fix]).taken ∧
      w.fix ∉ (Selection.ofFixes [v.fix, w.fix]).taken := by
  have ho := Tree.isParseOf_functionInMember.toIsOrderly
  have hs := Tree.hasBareSemicolons_functionInMember
  refine ⟨ho, hs, _, _, _, rfl, rfl, rfl, rfl, ?_⟩
  obtain ⟨hnested, hpass⟩ := Linter.lint_spans_nest .functionInMember
    "class A\x7bm()\x7bfunction f()\x7b\x7d\x7d;\x7d" "f.ts" ho hs rfl
  obtain ⟨htaken, -⟩ := hpass (by decide) (by unfold Span.IsFilled; decide)
  refine ⟨hnested _ List.mem_cons_self _ (List.mem_cons_of_mem _ List.mem_cons_self),
    (htaken _).2 ?_, fun hw => ?_⟩
  · unfold Fix.IsOutermost Span.IsWithin
    decide
  · have hout := ((htaken _).1 hw).2
    unfold Fix.IsOutermost Span.IsWithin at hout
    exact absurd hout (by decide)

end ArrowLint
