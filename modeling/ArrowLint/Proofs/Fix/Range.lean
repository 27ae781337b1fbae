/-
  ArrowLint.Proofs.Fix.Range

  Where fixes are made. A fix reaches from the start of a node to its end, or to the end of
  the semicolon that follows (`Rule.reaches_of_check`); so in a parse of a source it lies in
  the source and is drawn at boundaries (`Fix.IsPlacedIn`), as is everything that is reported
  (`Linter.isPlacedIn_of_lint`).
-/

import ArrowLint.Proofs.Candidate.Finding
import ArrowLint.Proofs.Fix.Splice

namespace ArrowLint

open Node

/-- Whether the span of a fix `fits` a source and is drawn at boundaries of its text. -/
structure Fix.IsPlacedIn (f : Fix) (source : String) : Prop where
  fits : f.span.fits (Bytes.ofText source).length = true
  start_isBoundary : Bytes.IsBoundary source f.span.start.toNat
  stop_isBoundary : Bytes.IsBoundary source f.span.stop.toNat

/-- Fixes that are `IsPlacedIn` a source can be applied, and at least one of them is. -/
theorem exists_applyFixes_of_isPlacedIn {source : String} {fixes : List Fix} (hne : fixes ≠ [])
    (h : ∀ f ∈ fixes, f.IsPlacedIn source) :
    ∃ fixed, applyFixes source fixes = .ok fixed ∧ 0 < fixed.count := by
  have htaken : ∀ f ∈ (Selection.ofFixes fixes).taken, f.IsPlacedIn source :=
    fun f hf => h f (Selection.mem_of_mem_taken hf)
  have hfits := fun f hf => (htaken f hf).fits
  obtain ⟨fixed, hfixed⟩ := exists_applyFixes hfits fun f hf =>
    ⟨(htaken f hf).start_isBoundary, (htaken f hf).stop_isBoundary⟩
  have hsome : (Selection.ofFixes fixes).taken ≠ [] :=
    Selection.taken_ne_nil hne fun f hf => (Span.fits_iff.1 (h f hf).fits).1
  refine ⟨fixed, hfixed, ?_⟩
  rw [((applyFixes_eq_ok_iff hfits).1 hfixed).1]
  exact List.length_pos_iff.2 hsome

/-! ## The range of a fix -/

/-- Whether a span reaches from `first` to itself or to its next sibling. -/
def Span.Covers (s : Span) (first : Node) : Prop :=
  ∃ last, s = ⟨first.start, last.stop⟩ ∧ (last = first ∨ first.nextSibling = some last)

/-- Whether `f` takes the place of a node, and possibly of a semicolon that is written directly
    behind it; the `last` node is then the semicolon. -/
structure Fix.Reaches (f : Fix) (first last : Node) : Prop where
  span : f.span = ⟨first.start, last.stop⟩
  last : last = first ∨ first.nextSibling = some last ∧ last.isWrittenSemicolon = true

theorem Fix.Reaches.covers {f : Fix} {first last : Node} (h : f.Reaches first last) :
    f.span.Covers first :=
  ⟨last, h.span, h.last.imp_right And.left⟩

theorem memberFix_reaches (entry : Node) (d : Descriptor) (arrow : Arrow) :
    ∃ last, (memberFix entry d arrow).Reaches entry last := by
  unfold memberFix
  split
  · cases hs : entry.nextSibling with
    | none => exact ⟨entry, rfl, .inl rfl⟩
    | some sibling =>
      dsimp only
      split
      · next hw => exact ⟨sibling, rfl, .inr ⟨hs, hw⟩⟩
      · exact ⟨entry, rfl, .inl rfl⟩
  · exact ⟨entry, rfl, .inl rfl⟩

/-- A fix of `fixWith` replaces the node of the candidate or its `entry`. -/
theorem Candidate.fixWith_reaches (c : Candidate) (d : Descriptor) (arrow : Arrow) :
    ∃ first last, (c.fixWith d arrow).Reaches first last ∧
      (first = c.node ∨ c.entry = some first) := by
  unfold fixWith
  split
  · next entry _ he =>
    obtain ⟨last, hr⟩ := memberFix_reaches entry d arrow
    exact ⟨entry, last, hr, .inr he⟩
  · exact ⟨c.node, c.node, ⟨rfl, .inl rfl⟩, .inl rfl⟩

/-- A fix that `Covers` nodes of a parse `IsPlacedIn` the source. -/
theorem Span.Covers.isPlacedIn {f : Fix} {first : Node} {source : String}
    (h : f.span.Covers first) (hp : first.whole.IsParseOf source) : f.IsPlacedIn source := by
  obtain ⟨last, hs, hlast⟩ := h
  have hwhole : last.whole = first.whole := by
    rcases hlast with rfl | hnext
    · rfl
    · exact whole_of_nextSibling hnext
  have hpl : last.whole.IsParseOf source := by rwa [hwhole]
  have hle : first.start ≤ last.stop := by
    rcases hlast with rfl | hnext
    · exact start_le_stop hp
    · -- the sibling starts behind the node, and neither ends ahead of its start
      have hfirst := start_le_stop hp
      have hbetween := stop_le_start_nextSibling hp.toIsOrderly hnext
      have hafter := start_le_stop hpl
      omega
  have hstart : Bytes.IsBoundary source first.start :=
    hp.start_isBoundary first first.mem_walk_root
  have hstop : Bytes.IsBoundary source last.stop := hpl.stop_isBoundary last last.mem_walk_root
  have hsize := hstop.le
  refine ⟨?_, ?_, ?_⟩
  · rw [hs]
    exact Span.fits_iff.2 ⟨Int.natCast_nonneg _, Int.ofNat_le.2 hsize, Int.ofNat_le.2 hle⟩
  · rw [hs]
    exact hstart
  · rw [hs]
    exact hstop

/-! ## The ranges of what is reported -/

/-- A function or a member, which a fix starts at, is no semicolon. -/
theorem Node.Makes.kind_ne_semicolon {n first : Node} {c : Candidate} (h : n.Makes c)
    (hfirst : first = n ∨ c.entry = some first) : first.kind ≠ .semicolon := by
  rcases hfirst with rfl | he
  · cases h.form with
    | defaultExport kind => rcases kind with hk | hk <;> simp [hk]
    | plain kind => rcases kind with ⟨hk, -⟩ | ⟨hk, -⟩ <;> simp [hk]
    | memberValue kind => simp [kind]
    | method kind => simp [kind]
    | arrowExpression kind => simp [kind]
    | arrowReturn kind => simp [kind]
  · cases h.form with
    | memberValue _ _ _ holds _ _ _ _ _ _ entry =>
      obtain rfl := Option.some.inj (entry.symm.trans he)
      intro hk
      rw [Node.isMember, hk] at holds
      cases holds
    | method kind _ _ _ _ _ _ entry =>
      obtain rfl := Option.some.inj (entry.symm.trans he)
      simp [kind]
    | defaultExport _ _ _ _ _ _ entry => rw [entry] at he; cases he
    | plain _ _ _ _ _ entry => rw [entry] at he; cases he
    | arrowExpression _ _ _ _ _ _ entry => rw [entry] at he; cases he
    | arrowReturn _ _ _ _ _ _ _ entry => rw [entry] at he; cases he

namespace Rule

/-- What `check` reports of `n` replaces `n` or its parent. -/
theorem reaches_of_check {rule : Rule} {path : String} {n : Node} {v : Violation}
    (h : rule.check path n = .ok (.violation v)) :
    ∃ first last, v.fix.Reaches first last ∧ (first = n ∨ n.parent = some first) ∧
      first.kind ≠ .semicolon := by
  obtain ⟨c, d, hmakes, -, hfix⟩ := exists_of_check_eq_violation h
  obtain ⟨arrow, -, hf⟩ := map_eq_ok_iff.1 hfix
  obtain ⟨first, last, hr, hfirst⟩ := c.fixWith_reaches d arrow
  rw [hmakes.node] at hfirst
  refine ⟨first, last, hf ▸ hr, ?_, hmakes.kind_ne_semicolon hfirst⟩
  rcases hfirst with rfl | he
  · exact .inl rfl
  · exact hmakes.entry_eq he

theorem isPlacedIn_of_check {rule : Rule} {path source : String} {n : Node} {v : Violation}
    (hp : n.whole.IsParseOf source) (h : rule.check path n = .ok (.violation v)) :
    v.fix.IsPlacedIn source := by
  obtain ⟨first, last, hr, hfirst, -⟩ := reaches_of_check h
  -- the parent is in the same tree as the function
  refine hr.covers.isPlacedIn ?_
  rcases hfirst with rfl | hparent
  · exact hp
  · rwa [whole_of_parent hparent]

end Rule

namespace Linter

variable {linter : Linter} {source path : String}

/-- With a faithful parser `lint` has a report for every source. -/
theorem exists_lint (hp : linter.parser.IsFaithful) (source path : String) :
    ∃ report, linter.lint source path = .ok report := by
  have hparse := hp (Grammar.ofPath path) source
  unfold lint
  refine exists_map_eq_ok _ (exists_mapM_eq_ok fun n hn => ?_)
  have hw := whole_of_mem_walk hn
  exact linter.rule.exists_check path (by rw [hw]; exact hparse.isLegible)

theorem exists_of_mem_violationsOf {findings : List Finding} {v : Violation}
    (h : v ∈ violationsOf findings) : Finding.violation v ∈ findings := by
  obtain ⟨finding, hf, hv⟩ := List.mem_filterMap.1 h
  cases finding with
  | none => cases hv
  | skipped r => cases hv
  | violation w =>
    obtain rfl := Option.some.inj hv
    exact hf

/-- With a faithful parser every fix `IsPlacedIn` the source that it is reported on. -/
theorem isPlacedIn_of_lint {report : LintReport} (hp : linter.parser.IsFaithful)
    (h : linter.lint source path = .ok report) :
    ∀ v ∈ report.result.violations, v.fix.IsPlacedIn source := by
  intro v hv
  obtain ⟨findings, hf, rfl⟩ := map_eq_ok_iff.1 h
  obtain ⟨n, hn, hcheck⟩ := exists_of_mem_of_mapM_eq_ok hf (exists_of_mem_violationsOf hv)
  have hw := whole_of_mem_walk hn
  exact Rule.isPlacedIn_of_check (by rw [hw]; exact hp _ source) hcheck

end Linter

end ArrowLint
