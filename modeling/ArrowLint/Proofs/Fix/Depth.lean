/-
  ArrowLint.Proofs.Fix.Depth

  How many passes functions that return functions take. A pass makes the fix for the outermost of
  them only, since the others lie in it, so with a parser that gives the trees of the texts on the
  way a nest takes as many passes as it has functions (`Linter.exists_fixPending_nest`). The limit
  does not depend on the depth: nothing remains just where the nest is no deeper than the limit
  (`Linter.fixSource_nest`), and of a deeper nest the rest is left over.
-/

import ArrowLint.Proofs.Fix.Clean
import ArrowLint.Proofs.Fix.Nest

namespace ArrowLint

namespace Linter

variable {linter : Linter} {path : String} {site : Site} {nest : Nest} {k : Nat}

/-- Linting the `stage` of a nest after `k` passes reports the functions that are left. -/
theorem exists_lint_stage (hsite : site.IsOpen linter.rule.options)
    (hnest : nest.IsConvertible linter.rule.options)
    (hp : linter.Reads path (nest.stage site linter.rule.options.returnStyle k)) :
    ∃ report,
      linter.lint (nest.stage site linter.rule.options.returnStyle k).full path = .ok report ∧
      nest.Reports linter.rule.options.returnStyle k (Bytes.ofText site.front).length
        report.result.violations := by
  have hl := (nest.stage site linter.rule.options.returnStyle k).isParseOf_parse.isLegible
  obtain ⟨report, hreport, hviolations⟩ := exists_lint_of_treeOf hp hl
  have hroot := Node.isAt_parse (nest.stage site linter.rule.options.returnStyle k)
  have hopen := Node.isOpen_root (nest.stage site linter.rule.options.returnStyle k).parse
    linter.rule.options
  obtain ⟨m, hm, hwhole, hmopen, hsame⟩ := Node.IsAt.exists_innermost
    (p := nest.after linter.rule.options.returnStyle k) hroot hsite.passive hsite.plain
    (Kind.ne_of_isFunction (nest.isFunction_after _ k).2 rfl) hopen.clear (fun _ => hopen.plain)
    linter.rule path
  refine ⟨report, hreport, ?_⟩
  rw [hviolations, hsame, Site.front, Bytes.ofText_append, List.length_append]
  exact nest.exists_reports path hnest.functions hnest.unbound k hm hmopen (by rwa [hwhole])

/-- One pass over the `stage` of a nest with functions left makes the fix for the outermost of
    them. -/
theorem applyFixes_stage {style : ReturnStyle} {violations : List Violation}
    (h : nest.Reports style k (Bytes.ofText site.front).length violations)
    (hne : violations ≠ []) :
    applyFixes (nest.stage site style k).full (violations.map (·.fix))
      = .ok ⟨(nest.stage site style (k + 1)).full, 1⟩ := by
  cases violations with
  | nil => exact absurd rfl hne
  | cons v rest =>
    obtain ⟨x, y, z, htext, hspan, hnext⟩ := h.first v rfl
    have htaken : (Selection.ofFixes ((v :: rest).map (·.fix))).taken = [v.fix] :=
      Selection.taken_of_areNested (Int.natCast_nonneg _) h.nested
    have happly := applyFixes_of_taken (x := site.front ++ x) (y := y) (z := z ++ site.back) htaken
      (by rw [hspan]; simp only [Bytes.ofText_append, List.length_append, Span.mk.injEq]; omega)
    rw [Nest.stage, Nest.stage, Site.full_place, Site.full_place, htext, hnext]
    simp only [String.append_assoc] at happly ⊢
    exact happly

/-- From the `stage` of a nest after `k` passes, each pass deals with one function, until none is
    left or the limit is reached. -/
theorem exists_fixPending_nest (hsite : site.IsOpen linter.rule.options)
    (hnest : nest.IsConvertible linter.rule.options)
    (limit : Nat) (hp : ∀ j ≤ min nest.depth (k + limit),
      linter.Reads path (nest.stage site linter.rule.options.returnStyle j))
    (hk : k ≤ nest.depth) {report : LintReport}
    (hlint : linter.lint (nest.stage site linter.rule.options.returnStyle k).full path
      = .ok report) :
    ∃ rest, linter.fixPending path limit
        (nest.stage site linter.rule.options.returnStyle k).full report.result.violations
        = .ok rest ∧
      rest.outcome.passes = min (nest.depth - k) limit ∧
      rest.outcome.applied = min (nest.depth - k) limit ∧
      rest.outcome.remaining.length = nest.depth - k - limit ∧
      rest.outcome.fixed = (nest.stage site linter.rule.options.returnStyle
        (k + min (nest.depth - k) limit)).full := by
  obtain ⟨report', hreport', hreports⟩ :=
    exists_lint_stage hsite hnest (hp k (Nat.le_min.2 ⟨hk, Nat.le_add_right k limit⟩))
  obtain rfl := Except.ok.inj (hlint.symm.trans hreport')
  -- on the limit, for every number of passes that have gone before
  induction limit generalizing k report with
  | zero => exact ⟨_, rfl, by simp [fixPending.settled], by simp [fixPending.settled],
      by simp [fixPending.settled, hreports.length], by simp [fixPending.settled]⟩
  | succ limit ih =>
    by_cases hne : report.result.violations = []
    · -- no function is left
      have hdone := hreports.length
      rw [hne, List.length_nil] at hdone
      rw [hne, fixPending_nil, ← hdone]
      exact ⟨_, rfl, by simp [fixPending.settled], by simp [fixPending.settled],
        by simp [fixPending.settled], by simp [fixPending.settled]⟩
    · have hlength := hreports.length
      have hpos := List.length_pos_iff.2 hne
      have hk' : k + 1 ≤ nest.depth := by omega
      obtain ⟨next, hnext, hnreports⟩ := exists_lint_stage hsite hnest (hp (k + 1) (by omega))
      obtain ⟨pass, log, hpass, heq⟩ :=
        fixPending_succ hne (applyFixes_stage hreports hne) Nat.one_pos hnext
      obtain ⟨rest, hrest, hpasses, happlied, hremaining, hfixed⟩ :=
        ih (fun j hj => hp j (by omega)) hk' hnext hnext hnreports
      rw [heq limit, hrest]
      refine ⟨_, rfl, ?_, ?_, ?_, ?_⟩
      · show 1 + rest.outcome.passes = _
        omega
      · show pass.fixed.count + rest.outcome.applied = _
        rw [hpass]
        show 1 + rest.outcome.applied = _
        omega
      · show rest.outcome.remaining.length = _
        omega
      · show rest.outcome.fixed = _
        rw [hfixed]
        congr 2
        omega

/-- Fixing a nest takes `min nest.depth limit` passes. -/
theorem exists_fixSource_nest (hsite : site.IsOpen linter.rule.options)
    (hnest : nest.IsConvertible linter.rule.options)
    (limit : Nat) (hp : ∀ k ≤ min nest.depth limit,
      linter.Reads path (nest.stage site linter.rule.options.returnStyle k)) :
    ∃ report, linter.fixSource (nest.stage site linter.rule.options.returnStyle 0).full path limit
        = .ok report ∧
      report.outcome.passes = min nest.depth limit ∧
      report.outcome.applied = min nest.depth limit ∧
      report.outcome.remaining.length = nest.depth - limit ∧
      report.outcome.fixed = (nest.stage site linter.rule.options.returnStyle
        (min nest.depth limit)).full := by
  obtain ⟨first, hfirst, -⟩ := exists_lint_stage hsite hnest (hp 0 (Nat.zero_le _))
  obtain ⟨rest, hrest, houtcome⟩ :=
    exists_fixPending_nest hsite hnest limit (by rwa [Nat.zero_add]) (Nat.zero_le _) hfirst
  rw [Nat.sub_zero, Nat.zero_add] at houtcome
  exact ⟨_, fixSource_of_lint hfirst (by rwa [Int.toNat_natCast]), houtcome⟩

/-- Fixing a nest of functions each of which is returned by the one around it takes a pass for each
    of them, the outermost first, as long as `defaultLimit` allows. So nothing is `remaining` just
    where there are no more of them than that, and of more those are left that the limit leaves
    out. -/
theorem fixSource_nest (linter : Linter) (path : String) (site : Site) (nest : Nest)
    (hsite : site.IsOpen linter.rule.options) (hnest : nest.IsConvertible linter.rule.options)
    (hp : ∀ k ≤ min nest.depth defaultLimit,
      linter.Reads path (nest.stage site linter.rule.options.returnStyle k)) :
    ∃ report, linter.fixSource (nest.stage site linter.rule.options.returnStyle 0).full path
        defaultLimit = .ok report ∧
      report.outcome.passes = min nest.depth defaultLimit ∧
      report.outcome.applied = min nest.depth defaultLimit ∧
      report.outcome.fixed = (nest.stage site linter.rule.options.returnStyle
        (min nest.depth defaultLimit)).full ∧
      report.outcome.remaining.length = nest.depth - defaultLimit ∧
      (report.outcome.remaining = [] ↔ nest.depth ≤ defaultLimit) := by
  obtain ⟨report, hreport, hpasses, happlied, hremaining, hfixed⟩ :=
    exists_fixSource_nest hsite hnest defaultLimit hp
  refine ⟨report, hreport, hpasses, happlied, hfixed, hremaining, ?_⟩
  rw [← List.length_eq_zero_iff, hremaining, Nat.sub_eq_zero_iff_le]

/-- The three functions of `tower 2` take three passes. -/
theorem fixSource_nest_tower :
    Site.constant.IsOpen {} ∧ (Nest.tower 2).IsConvertible {} ∧
    (∀ k ≤ min (Nest.tower 2).depth defaultLimit,
      (tower 2).Reads "f.ts" ((Nest.tower 2).stage .constant .unchanged k)) ∧
    ∃ report, (tower 2).fixSource
        ("const f = function () \x7b return function () \x7b return " ++
          "function () \x7b\x7d; \x7d; \x7d;") "f.ts" defaultLimit = .ok report ∧
      report.outcome.passes = 3 ∧ report.outcome.fixed = "const f = () => () => () => \x7b\x7d;" ∧
      report.outcome.remaining = [] := by
  have hp : ∀ k ≤ min (Nest.tower 2).depth defaultLimit,
      (tower 2).Reads "f.ts" ((Nest.tower 2).stage .constant .unchanged k) :=
    fun k hk => reads_tower (by decide +kernel) k (Nat.le_min.1 hk).1
  obtain ⟨report, hreport, hpasses, -, hfixed, -, hremaining⟩ :=
    fixSource_nest (tower 2) "f.ts" .constant (.tower 2) Site.isOpen_constant
      (Nest.isConvertible_tower 2) hp
  exact ⟨Site.isOpen_constant, Nest.isConvertible_tower 2, hp, report, hreport, hpasses, hfixed,
    hremaining.2 (by decide)⟩

/-- The `defaultLimit` does not do for every nest: of eleven functions one is left over. -/
theorem remaining_of_deepNest :
    ¬ ∀ (linter : Linter) (path : String) (site : Site) (nest : Nest),
      site.IsOpen linter.rule.options → nest.IsConvertible linter.rule.options →
      (∀ k ≤ min nest.depth defaultLimit,
        linter.Reads path (nest.stage site linter.rule.options.returnStyle k)) →
      ∃ report, linter.fixSource (nest.stage site linter.rule.options.returnStyle 0).full path
          defaultLimit = .ok report ∧ report.outcome.remaining = [] := by
  intro h
  have hp : ∀ k ≤ min (Nest.tower 10).depth defaultLimit,
      (tower 10).Reads "f.ts" ((Nest.tower 10).stage .constant .unchanged k) :=
    fun k hk => reads_tower (by decide +kernel) k (Nat.le_min.1 hk).1
  obtain ⟨report, hreport, hnil⟩ := h (tower 10) "f.ts" .constant (.tower 10)
    Site.isOpen_constant (Nest.isConvertible_tower 10) hp
  obtain ⟨report', hreport', -, -, hremaining, -⟩ :=
    @exists_fixSource_nest (tower 10) _ _ _ Site.isOpen_constant (Nest.isConvertible_tower 10)
      defaultLimit hp
  obtain rfl := Except.ok.inj (hreport.symm.trans hreport')
  rw [hnil] at hremaining
  exact absurd hremaining (by decide)

end Linter

end ArrowLint
