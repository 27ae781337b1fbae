/-
  ArrowLint.Proofs.Fix.Selection

  The fixes that are made at once. They are some of those given, each of them starts where
  the one before has ended or later (`Fix.InOrder`), and there is one as soon as there is
  any fix that does not start ahead of the source. The others are put off, and nothing gets
  lost (`Selection.ofFixes_perm`).
-/

import ArrowLint.Fix.Selection

namespace ArrowLint

/-- Whether fixes come one behind the other, the first no earlier than `last`. -/
def Fix.InOrder : (last : Int) → List Fix → Prop
  | _, [] => True
  | last, f :: fs => last ≤ f.span.start ∧ InOrder f.span.stop fs

/-- Of fixes that come `InOrder`, each starts where or behind where all before it end, unless one of
    them ends ahead of its own start. -/
theorem Fix.InOrder.pairwise {last : Int} {fixes : List Fix} (h : InOrder last fixes)
    (hle : ∀ f ∈ fixes, f.span.start ≤ f.span.stop) :
    (∀ f ∈ fixes, last ≤ f.span.start) ∧
      fixes.Pairwise fun f g => f.span.stop ≤ g.span.start := by
  induction fixes generalizing last with
  | nil => simp
  | cons f fs ih =>
    obtain ⟨hlast, hrest⟩ := h
    obtain ⟨hahead, hpair⟩ := ih hrest fun g hg => hle g (List.mem_cons_of_mem f hg)
    have hf := hle f List.mem_cons_self
    refine ⟨?_, List.pairwise_cons.2 ⟨hahead, hpair⟩⟩
    intro g hg
    rcases List.mem_cons.1 hg with rfl | hg
    · exact hlast
    · have hg' := hahead g hg
      omega

namespace Selection

theorem inOrder_startingAt (last : Int) (fixes : List Fix) :
    Fix.InOrder last (startingAt last fixes).taken := by
  induction fixes generalizing last with
  | nil => trivial
  | cons f fs ih =>
    unfold startingAt
    split
    · -- put off: the rest still has to start behind the last one taken
      exact ih last
    · -- taken: the rest has to start behind this one
      next h => exact ⟨Int.not_lt.1 h, ih f.span.stop⟩

theorem startingAt_sublist (last : Int) (fixes : List Fix) :
    (startingAt last fixes).taken.Sublist fixes := by
  induction fixes generalizing last with
  | nil => exact .slnil
  | cons f fs ih =>
    unfold startingAt
    split
    · exact (ih last).cons f
    · exact (ih f.span.stop).cons_cons f

/-- Each fix is either taken or deferred by `startingAt`. -/
theorem startingAt_perm (last : Int) (fixes : List Fix) :
    ((startingAt last fixes).taken ++ (startingAt last fixes).deferred).Perm fixes := by
  induction fixes generalizing last with
  | nil => exact .refl _
  | cons f fs ih =>
    unfold startingAt
    split
    · exact List.perm_middle.trans ((ih last).cons f)
    · exact (ih f.span.stop).cons f

/-- The fixes that `ofFixes` takes and those that it defers are the given ones. -/
theorem ofFixes_perm (fixes : List Fix) :
    ((ofFixes fixes).taken ++ (ofFixes fixes).deferred).Perm fixes :=
  (startingAt_perm (-1) _).trans (List.mergeSort_perm fixes precedes)

theorem mem_taken_or_mem_deferred_iff {f : Fix} {fixes : List Fix} :
    f ∈ (ofFixes fixes).taken ∨ f ∈ (ofFixes fixes).deferred ↔ f ∈ fixes := by
  rw [← List.mem_append, (ofFixes_perm fixes).mem_iff]

theorem precedes_iff {f g : Fix} : precedes f g = true ↔ f.span.start < g.span.start ∨
    f.span.start = g.span.start ∧ g.span.stop ≤ f.span.stop := by
  simp only [precedes, Bool.or_eq_true, Bool.and_eq_true, decide_eq_true_eq, beq_iff_eq]

theorem precedes_trans {f g h : Fix} (hfg : precedes f g = true) (hgh : precedes g h = true) :
    precedes f h = true := by
  rw [precedes_iff] at *
  omega

theorem precedes_total (f g : Fix) : (precedes f g || precedes g f) = true := by
  rw [Bool.or_eq_true, precedes_iff, precedes_iff]
  omega

/-- The list `ordered fixes` is sorted by `precedes`. -/
theorem pairwise_ordered (fixes : List Fix) :
    (ordered fixes).Pairwise fun a b => precedes a b := by
  refine List.pairwise_mergeSort (fun a b c hab hbc => ?_) (fun a b => ?_) fixes
  · exact precedes_trans hab hbc
  · exact precedes_total a b

/-- Fixes that are sorted by `precedes` already are considered as they come. -/
theorem ofFixes_of_pairwise {fixes : List Fix} (h : fixes.Pairwise fun a b => precedes a b) :
    ofFixes fixes = startingAt (-1) fixes := by
  rw [ofFixes, ordered, List.mergeSort_of_pairwise h]

/-- Every fix that is `taken` is one of those given. -/
theorem mem_of_mem_taken {f : Fix} {fixes : List Fix} (h : f ∈ (ofFixes fixes).taken) :
    f ∈ fixes :=
  List.mem_mergeSort.1 ((startingAt_sublist (-1) _).subset h)

/-- Of fixes none of which starts ahead of the source, one is `taken`. -/
theorem taken_ne_nil {fixes : List Fix} (hne : fixes ≠ [])
    (hstart : ∀ f ∈ fixes, 0 ≤ f.span.start) : (ofFixes fixes).taken ≠ [] := by
  unfold ofFixes
  cases ho : ordered fixes with
  | nil =>
    have hlen : (ordered fixes).length = fixes.length := List.length_mergeSort fixes
    rw [ho] at hlen
    exact absurd (List.eq_nil_of_length_eq_zero hlen.symm) hne
  | cons f fs =>
    have hmem : f ∈ ordered fixes := by
      rw [ho]
      exact List.mem_cons_self
    have hf := hstart f (List.mem_mergeSort.1 hmem)
    -- the first in order is not put off: nothing has been taken ahead of it
    unfold startingAt
    rw [if_neg (by omega)]
    exact List.cons_ne_nil _ _

end Selection

end ArrowLint
