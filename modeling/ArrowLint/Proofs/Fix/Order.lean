/-
  ArrowLint.Proofs.Fix.Order

  The order in which fixes come to be considered. It is told by their ranges alone, and fixes for
  one range keep the order in which they came (`Selection.filter_ordered`). So as long as no two
  fixes are for one range, the order in which they are given plays no part: neither in which of
  them are made nor in what comes out (`applyFixes_of_perm`).
-/

import ArrowLint.Proofs.Fix.Splice

namespace ArrowLint

variable {f g : Fix} {fixes other : List Fix}

namespace Selection

theorem ordered_perm (fixes : List Fix) : (ordered fixes).Perm fixes :=
  List.mergeSort_perm fixes precedes

/-- Fixes each of which `precedes` the other are for one span. -/
theorem span_eq_of_precedes (hfg : precedes f g = true) (hgf : precedes g f = true) :
    f.span = g.span := by
  obtain ⟨⟨a, b⟩, s⟩ := f
  obtain ⟨⟨c, d⟩, t⟩ := g
  rw [precedes_iff] at hfg hgf
  rw [Span.mk.injEq]
  dsimp only at hfg hgf ⊢
  omega

/-- Of two fixes for one span each `precedes` the other. -/
theorem precedes_of_span_eq (h : f.span = g.span) : precedes f g = true := by
  rw [precedes_iff, h]
  omega

/-- Fixes for one span stay in the order in which they came. -/
theorem filter_ordered (s : Span) (fixes : List Fix) :
    (ordered fixes).filter (·.span = s) = fixes.filter (·.span = s) := by
  -- being in order already, they are a part of all fixes in order as well
  have hsorted : (fixes.filter (·.span = s)).Pairwise fun a b => precedes a b := by
    refine List.pairwise_of_forall_mem_list fun a ha b hb => precedes_of_span_eq ?_
    rw [of_decide_eq_true (List.mem_filter.1 ha).2, of_decide_eq_true (List.mem_filter.1 hb).2]
  have hsub : (fixes.filter (·.span = s)).Sublist (ordered fixes) := by
    refine List.sublist_mergeSort (fun a b c hab hbc => ?_) (fun a b => ?_) hsorted
      List.filter_sublist
    · exact precedes_trans hab hbc
    · exact precedes_total a b
  have hfilter := hsub.filter (·.span = s)
  simp only [List.filter_filter, Bool.and_self] at hfilter
  exact (hfilter.eq_of_length ((ordered_perm fixes).filter _).length_eq.symm).symm

/-- In another order, fixes for different spans are `ordered` in the same way. -/
theorem ordered_of_perm (h : fixes.Perm other)
    (hspan : ∀ f ∈ fixes, ∀ g ∈ fixes, f.span = g.span → f = g) :
    ordered fixes = ordered other := by
  have hperm : (ordered fixes).Perm (ordered other) :=
    (ordered_perm fixes).trans (h.trans (ordered_perm other).symm)
  refine hperm.eq_of_pairwise (fun f g hf hg hfg hgf => ?_) (pairwise_ordered fixes)
    (pairwise_ordered other)
  have hf : f ∈ fixes := (ordered_perm fixes).mem_iff.1 hf
  have hg : g ∈ fixes := h.mem_iff.2 ((ordered_perm other).mem_iff.1 hg)
  exact hspan f hf g hg (span_eq_of_precedes hfg hgf)

theorem ofFixes_of_perm (h : fixes.Perm other)
    (hspan : ∀ f ∈ fixes, ∀ g ∈ fixes, f.span = g.span → f = g) :
    ofFixes fixes = ofFixes other := by
  rw [ofFixes, ofFixes, ordered_of_perm h hspan]

end Selection

/-- Which fixes are `taken`, which are `deferred` and what comes out of `applyFixes` does not depend
    on the order in which the fixes are given, if no two different ones of them are for one span. -/
theorem applyFixes_of_perm (h : fixes.Perm other)
    (hspan : ∀ f ∈ fixes, ∀ g ∈ fixes, f.span = g.span → f = g) (source : String) :
    (Selection.ofFixes fixes).taken = (Selection.ofFixes other).taken ∧
      (Selection.ofFixes fixes).deferred = (Selection.ofFixes other).deferred ∧
      applyFixes source fixes = applyFixes source other := by
  have hsel := Selection.ofFixes_of_perm h hspan
  rw [applyFixes_eq, applyFixes_eq, hsel]
  exact ⟨rfl, rfl, rfl⟩

/-- Three fixes for `abcd` given in two orders: the two that overlap start together, and the longer
    one of them is made. -/
theorem applyFixes_of_perm_threeFixes :
    [(⟨⟨2, 3⟩, "z"⟩ : Fix), ⟨⟨0, 1⟩, "x"⟩, ⟨⟨0, 2⟩, "y"⟩].Perm
        [⟨⟨0, 2⟩, "y"⟩, ⟨⟨0, 1⟩, "x"⟩, ⟨⟨2, 3⟩, "z"⟩] ∧
      (Selection.ofFixes [⟨⟨2, 3⟩, "z"⟩, ⟨⟨0, 1⟩, "x"⟩, ⟨⟨0, 2⟩, "y"⟩]).taken
        = [⟨⟨0, 2⟩, "y"⟩, ⟨⟨2, 3⟩, "z"⟩] ∧
      applyFixes "abcd" [⟨⟨2, 3⟩, "z"⟩, ⟨⟨0, 1⟩, "x"⟩, ⟨⟨0, 2⟩, "y"⟩]
        = applyFixes "abcd" [⟨⟨0, 2⟩, "y"⟩, ⟨⟨0, 1⟩, "x"⟩, ⟨⟨2, 3⟩, "z"⟩] := by
  have hperm : [(⟨⟨2, 3⟩, "z"⟩ : Fix), ⟨⟨0, 1⟩, "x"⟩, ⟨⟨0, 2⟩, "y"⟩].Perm
      [⟨⟨0, 2⟩, "y"⟩, ⟨⟨0, 1⟩, "x"⟩, ⟨⟨2, 3⟩, "z"⟩] := by decide
  obtain ⟨htaken, -, hsame⟩ := applyFixes_of_perm hperm (by decide) "abcd"
  have hsorted : Selection.ofFixes [⟨⟨0, 2⟩, "y"⟩, ⟨⟨0, 1⟩, "x"⟩, ⟨⟨2, 3⟩, "z"⟩]
      = Selection.startingAt (-1) [⟨⟨0, 2⟩, "y"⟩, ⟨⟨0, 1⟩, "x"⟩, ⟨⟨2, 3⟩, "z"⟩] :=
    Selection.ofFixes_of_pairwise (by decide)
  rw [hsorted] at htaken
  exact ⟨hperm, htaken, hsame⟩

end ArrowLint
