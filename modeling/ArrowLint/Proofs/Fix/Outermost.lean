/-
  ArrowLint.Proofs.Fix.Outermost

  Selection among fixes that do not cut across one another. If any two of their ranges are
  nested or disjoint (`Span.IsNestedOrApart`), what is put off lies in something that is made
  (`Selection.exists_taken_of_mem_deferred`); and if no two ranges are the same, what is made
  are just the fixes that lie in no other one (`Selection.mem_taken_iff_isOutermost`).
-/

import Mathlib.Data.List.Nodup
import Mathlib.Data.List.Pairwise
import Mathlib.Tactic.ByContra
import ArrowLint.Proofs.Fix.Selection

namespace ArrowLint

/-! ## Ranges that do not cut across one another -/

namespace Span

/-- Whether `s` lies in `t`. -/
def IsWithin (s t : Span) : Prop :=
  t.start ≤ s.start ∧ s.stop ≤ t.stop

/-- Whether one of `s` and `t` has ended when the other starts. -/
def IsApart (s t : Span) : Prop :=
  s.stop ≤ t.start ∨ t.stop ≤ s.start

/-- Whether one of `s` and `t` lies in the other, or they are apart. -/
def IsNestedOrApart (s t : Span) : Prop :=
  s.IsWithin t ∨ t.IsWithin s ∨ s.IsApart t

/-- Whether a span holds any bytes. -/
def IsFilled (s : Span) : Prop :=
  s.start < s.stop

theorem IsWithin.trans {s t u : Span} (hst : s.IsWithin t) (htu : t.IsWithin u) :
    s.IsWithin u := by
  unfold IsWithin at *
  omega

theorem IsWithin.antisymm {s t : Span} (hst : s.IsWithin t) (hts : t.IsWithin s) : s = t := by
  obtain ⟨a, b⟩ := s
  obtain ⟨c, d⟩ := t
  have hst : c ≤ a ∧ b ≤ d := hst
  have hts : a ≤ c ∧ d ≤ b := hts
  rw [Span.mk.injEq]
  omega

/-- A span that `IsFilled` lies in none that it is apart from. -/
theorem IsWithin.not_isApart {s t : Span} (h : s.IsWithin t) (hs : s.IsFilled) :
    ¬ s.IsApart t := by
  unfold IsWithin at h
  unfold IsFilled at hs
  unfold IsApart
  omega

end Span

/-- Whether `f` lies in no other one of `fixes`. -/
def Fix.IsOutermost (f : Fix) (fixes : List Fix) : Prop :=
  ∀ g ∈ fixes, f.span.IsWithin g.span → g = f

namespace Selection

variable {f g : Fix} {fixes : List Fix}

/-! ## What is put off -/

/-- If `f` starts ahead of the end of a fix that is considered earlier, it lies in that fix. -/
theorem isWithin_of_precedes (hfg : f.span.IsNestedOrApart g.span)
    (hg : precedes g f = true) (hlt : f.span.start < g.span.stop) : f.span.IsWithin g.span := by
  rw [precedes_iff] at hg
  unfold Span.IsNestedOrApart Span.IsWithin Span.IsApart at *
  omega

/-- Behind a fix `g` that has been taken, what is deferred lies in it or in one taken later. -/
theorem exists_isWithin_of_mem_deferred
    (hnested : ∀ f ∈ g :: fixes, ∀ h ∈ g :: fixes, f.span.IsNestedOrApart h.span)
    (hsorted : (g :: fixes).Pairwise fun a b => precedes a b)
    (hf : f ∈ (startingAt g.span.stop fixes).deferred) :
    ∃ h ∈ g :: (startingAt g.span.stop fixes).taken, f.span.IsWithin h.span := by
  -- on the fixes still to come, for all that can have been taken last
  induction fixes generalizing g with
  | nil => cases hf
  | cons e es ih =>
    obtain ⟨hg, hes⟩ := List.pairwise_cons.1 hsorted
    unfold startingAt at hf ⊢
    split at hf
    · next hlt =>
      rw [if_pos hlt]
      rcases List.mem_cons.1 hf with rfl | hf
      · have hfg := hnested f (by simp) g (by simp)
        exact ⟨g, List.mem_cons_self, isWithin_of_precedes hfg (hg f List.mem_cons_self) hlt⟩
      · -- the one put off here plays no part in what follows
        have hkeep : ∀ d ∈ g :: es, d ∈ g :: e :: es := fun d hd => by
          rcases List.mem_cons.1 hd with rfl | hd
          · exact List.mem_cons_self
          · exact List.mem_cons_of_mem _ (List.mem_cons_of_mem _ hd)
        refine ih (fun d hd h hh => hnested d (hkeep d hd) h (hkeep h hh)) ?_ hf
        exact List.pairwise_cons.2 ⟨fun d hd => hg d (List.mem_cons_of_mem e hd),
          (List.pairwise_cons.1 hes).2⟩
    · next hlt =>
      rw [if_neg hlt]
      -- taken: from now on it is the last one
      have hkeep : ∀ d ∈ e :: es, d ∈ g :: e :: es := fun d hd => List.mem_cons_of_mem g hd
      obtain ⟨h, hh, hw⟩ :=
        ih (fun d hd h hh => hnested d (hkeep d hd) h (hkeep h hh)) hes hf
      exact ⟨h, List.mem_cons_of_mem g hh, hw⟩

/-- Every fix that is deferred `IsWithin` one that is taken. -/
theorem exists_taken_of_mem_deferred
    (hnested : ∀ f ∈ fixes, ∀ g ∈ fixes, f.span.IsNestedOrApart g.span)
    (hstart : ∀ f ∈ fixes, 0 ≤ f.span.start) (hf : f ∈ (ofFixes fixes).deferred) :
    ∃ g ∈ (ofFixes fixes).taken, f.span.IsWithin g.span := by
  have hmem : ∀ d ∈ ordered fixes, d ∈ fixes := fun d hd => List.mem_mergeSort.1 hd
  have hsorted := pairwise_ordered fixes
  unfold ofFixes at hf ⊢
  cases ho : ordered fixes with
  | nil =>
    rw [ho] at hf
    cases hf
  | cons e es =>
    rw [ho] at hf hmem hsorted
    have he := hstart e (hmem e List.mem_cons_self)
    -- the first one is taken, since nothing starts ahead of the source
    unfold startingAt at hf ⊢
    rw [if_neg (by omega)] at hf ⊢
    exact exists_isWithin_of_mem_deferred
      (fun d hd h hh => hnested d (hmem d hd) h (hmem h hh)) hsorted hf

/-! ## What is made -/

/-- Of two fixes that are taken neither lies in the other. -/
theorem eq_of_isWithin_of_mem_taken (hfilled : ∀ f ∈ fixes, f.span.IsFilled)
    (hf : f ∈ (ofFixes fixes).taken) (hg : g ∈ (ofFixes fixes).taken)
    (h : f.span.IsWithin g.span) : f = g := by
  have htaken : ∀ d ∈ (ofFixes fixes).taken, d.span.IsFilled :=
    fun d hd => hfilled d (mem_of_mem_taken hd)
  have hpair := ((inOrder_startingAt (-1) (ordered fixes)).pairwise
    fun d hd => Int.le_of_lt (htaken d hd)).2
  by_contra hne
  -- two different ones are apart, whichever comes first
  have hsymm : Std.Symm fun a b : Fix => a.span.IsApart b.span := ⟨fun _ _ => Or.symm⟩
  have hapart : (ofFixes fixes).taken.Pairwise fun a b => a.span.IsApart b.span :=
    hpair.imp Or.inl
  exact h.not_isApart (htaken f hf) (hapart.forall hf hg hne)

/-- Of fixes for different spans that do not cut across one another, just those are taken that are
    `IsOutermost`. -/
theorem mem_taken_iff_isOutermost
    (hnested : ∀ f ∈ fixes, ∀ g ∈ fixes, f.span.IsNestedOrApart g.span)
    (hstart : ∀ f ∈ fixes, 0 ≤ f.span.start) (hfilled : ∀ f ∈ fixes, f.span.IsFilled)
    (hnodup : (fixes.map (·.span)).Nodup) :
    f ∈ (ofFixes fixes).taken ↔ f ∈ fixes ∧ f.IsOutermost fixes := by
  constructor
  · refine fun hf => ⟨mem_of_mem_taken hf, fun g hg hfg => ?_⟩
    rcases mem_taken_or_mem_deferred_iff.2 hg with hg' | hg'
    · exact (eq_of_isWithin_of_mem_taken hfilled hf hg' hfg).symm
    · -- put off, it lies in something that is made, and so does the fix: that is the fix itself
      obtain ⟨h, hh, hgh⟩ := exists_taken_of_mem_deferred hnested hstart hg'
      obtain rfl := eq_of_isWithin_of_mem_taken hfilled hf hh (hfg.trans hgh)
      exact List.inj_on_of_nodup_map hnodup hg (mem_of_mem_taken hf) (hgh.antisymm hfg)
  · rintro ⟨hf, hout⟩
    rcases mem_taken_or_mem_deferred_iff.2 hf with hf' | hf'
    · exact hf'
    · obtain ⟨g, hg, hfg⟩ := exists_taken_of_mem_deferred hnested hstart hf'
      rwa [hout g (mem_of_mem_taken hg) hfg] at hg

end Selection

/-! ## Fixes one in the other -/

/-- Whether each of the fixes lies in the one ahead of it, and the first in `outer`. -/
def Fix.AreNested : Span → List Fix → Prop
  | _, [] => True
  | outer, f :: fs => f.span.IsWithin outer ∧ f.span.IsFilled ∧ AreNested f.span fs

namespace Fix.AreNested

variable {s t : Span} {f : Fix} {fs : List Fix}

theorem mono (h : AreNested s fs) (hst : s.IsWithin t) : AreNested t fs := by
  cases fs with
  | nil => trivial
  | cons f fs => exact ⟨h.1.trans hst, h.2⟩

theorem isWithin (h : AreNested s fs) (hf : f ∈ fs) : f.span.IsWithin s ∧ f.span.IsFilled := by
  induction fs generalizing s with
  | nil => cases hf
  | cons g gs ih =>
    rcases List.mem_cons.1 hf with rfl | hf
    · exact ⟨h.1, h.2.1⟩
    · have hg := ih h.2.2 hf
      exact ⟨hg.1.trans h.1, hg.2⟩

theorem pairwise_precedes (h : AreNested s fs) :
    fs.Pairwise fun a b => Selection.precedes a b := by
  induction fs generalizing s with
  | nil => exact .nil
  | cons f fs ih =>
    refine List.pairwise_cons.2 ⟨fun g hg => ?_, ih h.2.2⟩
    obtain ⟨hstart, hstop⟩ := (h.2.2.isWithin hg).1
    rw [Selection.precedes_iff]
    omega

end Fix.AreNested

namespace Selection

/-- Nothing is taken of fixes that start ahead of `last`. -/
theorem taken_startingAt_eq_nil {last : Int} {fs : List Fix}
    (h : ∀ f ∈ fs, f.span.start < last) : (startingAt last fs).taken = [] := by
  induction fs with
  | nil => rfl
  | cons f fs ih =>
    rw [startingAt, if_pos (h f List.mem_cons_self)]
    exact ih fun g hg => h g (List.mem_cons_of_mem f hg)

/-- Of fixes that `AreNested` only the first is taken. -/
theorem taken_of_areNested {s : Span} {f : Fix} {fs : List Fix} (hs : 0 ≤ s.start)
    (h : Fix.AreNested s (f :: fs)) : (ofFixes (f :: fs)).taken = [f] := by
  have hfirst : ¬ f.span.start < -1 := by
    have hstart := h.1.1
    omega
  have hinside : ∀ g ∈ fs, g.span.start < f.span.stop := by
    intro g hg
    obtain ⟨⟨-, hstop⟩, hfilled⟩ := h.2.2.isWithin hg
    exact Int.lt_of_lt_of_le hfilled hstop
  rw [ofFixes_of_pairwise h.pairwise_precedes, startingAt, if_neg hfirst]
  exact congrArg (f :: ·) (taken_startingAt_eq_nil hinside)

end Selection

end ArrowLint
