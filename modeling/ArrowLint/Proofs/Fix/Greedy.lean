/-
  ArrowLint.Proofs.Fix.Greedy

  Which fixes are put off, told fix by fix. Going through them, it is enough to remember where the
  last one taken ends (`Selection.Remembers`): a fix starts ahead of that just when it overlaps
  something taken before (`Selection.Remembers.lt_iff`). So a selection is the greedy one
  (`Selection.IsGreedy`): a fix is left out just when it overlaps one that is considered earlier
  and taken, and whether fixes are taken or put off, none of them is lost or comes twice.
-/

import ArrowLint.Proofs.Fix.Order

namespace ArrowLint

variable {f g : Fix} {fixes : List Fix} {last : Int}

theorem Span.overlaps_iff {s t : Span} :
    s.overlaps t = true ↔ s.start < t.stop ∧ t.start < s.stop := by
  rw [overlaps, Bool.and_eq_true, decide_eq_true_eq, decide_eq_true_eq]

/-- Of two spans one of which has ended when the other starts, neither `overlaps` the other. -/
theorem Span.overlaps_eq_false {s t : Span} (h : s.stop ≤ t.start) :
    s.overlaps t = false ∧ t.overlaps s = false := by
  rw [← Bool.not_eq_true, ← Bool.not_eq_true, overlaps_iff, overlaps_iff]
  omega

namespace Selection

/-! ## Taken or not, fix by fix -/

/-- Ordered fixes, each with whether it is taken, where `last` is the end of the last one taken. -/
def marksFrom (last : Int) : List Fix → List (Fix × Bool)
  | [] => []
  | f :: fs =>
    if f.span.start < last then (f, false) :: marksFrom last fs
    else (f, true) :: marksFrom f.span.stop fs

theorem map_fst_marksFrom (last : Int) (fixes : List Fix) :
    (marksFrom last fixes).map (·.1) = fixes := by
  induction fixes generalizing last with
  | nil => rfl
  | cons f fs ih =>
    unfold marksFrom
    split
    · exact congrArg (f :: ·) (ih last)
    · exact congrArg (f :: ·) (ih f.span.stop)

/-- The selection `startingAt last` is what `marksFrom last` says. -/
theorem startingAt_eq_marks (last : Int) (fixes : List Fix) :
    startingAt last fixes = ⟨((marksFrom last fixes).filter (·.2)).map (·.1),
      ((marksFrom last fixes).filter (!·.2)).map (·.1)⟩ := by
  induction fixes generalizing last with
  | nil => rfl
  | cons f fs ih =>
    unfold startingAt marksFrom
    split
    · rw [ih last]
      rfl
    · rw [ih f.span.stop]
      rfl

/-! ## One end for all that is taken -/

/-- Whether `last` tells of the fixes `seen` where those taken end: all of them there or ahead of it
    and, if there are any, one of them there. -/
structure Remembers (last : Int) (seen : List (Fix × Bool)) : Prop where
  le : ∀ g, (g, true) ∈ seen → g.span.stop ≤ last
  attained : last < 0 ∨ ∃ g, (g, true) ∈ seen ∧ g.span.stop = last

namespace Remembers

variable {seen : List (Fix × Bool)}

/-- A fix that is considered after those `seen` starts ahead of `last` just when it overlaps one of
    those taken. -/
theorem lt_iff (h : Remembers last seen) (hlater : ∀ m ∈ seen, m.1.span.start ≤ f.span.start)
    (hf : 0 ≤ f.span.start) (hfilled : f.span.start < f.span.stop) :
    f.span.start < last ↔ ∃ g, (g, true) ∈ seen ∧ g.span.overlaps f.span = true := by
  constructor
  · intro hlt
    rcases h.attained with hnone | ⟨g, hg, hstop⟩
    · omega
    · have hstart : g.span.start ≤ f.span.start := hlater (g, true) hg
      exact ⟨g, hg, Span.overlaps_iff.2 (by omega)⟩
  · rintro ⟨g, hg, hover⟩
    exact Int.lt_of_lt_of_le (Span.overlaps_iff.1 hover).2 (h.le g hg)

/-- A fix that is deferred leaves `last` where it is. -/
theorem deferring (h : Remembers last seen) (f : Fix) : Remembers last (seen ++ [(f, false)]) where
  le := fun g hg => h.le g (by simpa using hg)
  attained := h.attained.imp_right fun ⟨g, hg, hstop⟩ => ⟨g, List.mem_append_left _ hg, hstop⟩

/-- A fix that is taken at `last` or behind it ends last from then on. -/
theorem taking (h : Remembers last seen) (hstart : last ≤ f.span.start)
    (hfilled : f.span.start < f.span.stop) : Remembers f.span.stop (seen ++ [(f, true)]) where
  le := fun g hg => by
    rcases List.mem_append.1 hg with hg | hg
    · have hle := h.le g hg
      omega
    · obtain rfl : g = f := congrArg (·.1) (List.mem_singleton.1 hg)
      exact Int.le_refl _
  attained := .inr ⟨f, by simp, rfl⟩

/-- The first fix is marked, and the rest from an offset that `Remembers` it as well. -/
theorem exists_marksFrom_cons (h : Remembers last seen) (hfilled : f.span.start < f.span.stop) :
    ∃ isTaken next, (∀ fs, marksFrom last (f :: fs) = (f, isTaken) :: marksFrom next fs) ∧
      Remembers next (seen ++ [(f, isTaken)]) ∧ (isTaken = false ↔ f.span.start < last) := by
  by_cases hlt : f.span.start < last
  · exact ⟨false, last, fun fs => by rw [marksFrom, if_pos hlt], h.deferring f, by simp [hlt]⟩
  · exact ⟨true, f.span.stop, fun fs => by rw [marksFrom, if_neg hlt],
      h.taking (Int.not_lt.1 hlt) hfilled, by simp [hlt]⟩

end Remembers

/-- Behind fixes that are `seen`, ordered fixes are marked as deferred just where they overlap one
    that is marked as taken. -/
theorem mark_eq_false_iff {seen before after : List (Fix × Bool)} {isTaken : Bool}
    (h : Remembers last seen)
    (hlater : ∀ m ∈ seen, ∀ f ∈ fixes, m.1.span.start ≤ f.span.start)
    (hsorted : fixes.Pairwise fun a b => precedes a b)
    (hfilled : ∀ f ∈ fixes, 0 ≤ f.span.start ∧ f.span.start < f.span.stop)
    (hmarks : marksFrom last fixes = before ++ (f, isTaken) :: after) :
    isTaken = false ↔ ∃ g, (g, true) ∈ seen ++ before ∧ g.span.overlaps f.span = true := by
  -- on the fixes still to come, for all that has been marked before them
  induction fixes generalizing last seen before with
  | nil =>
    rw [marksFrom] at hmarks
    simp at hmarks
  | cons e es ih =>
    obtain ⟨hfirst, hrest⟩ := List.pairwise_cons.1 hsorted
    obtain ⟨hstart, hstop⟩ := hfilled e List.mem_cons_self
    obtain ⟨b, next, hcons, hnext, hb⟩ := h.exists_marksFrom_cons hstop
    rw [hcons] at hmarks
    cases before with
    | nil =>
      obtain ⟨heq, -⟩ := List.cons.inj hmarks
      obtain ⟨rfl, rfl⟩ := Prod.mk.inj heq
      rw [List.append_nil, hb]
      exact h.lt_iff (fun m hm => hlater m hm e List.mem_cons_self) hstart hstop
    | cons m before =>
      obtain ⟨rfl, htail⟩ := List.cons.inj hmarks
      have hlater' : ∀ m ∈ seen ++ [(e, b)], ∀ f ∈ es, m.1.span.start ≤ f.span.start := by
        intro m hm f hf
        rcases List.mem_append.1 hm with hm | hm
        · exact hlater m hm f (List.mem_cons_of_mem e hf)
        · rw [List.mem_singleton.1 hm]
          have hef := precedes_iff.1 (hfirst f hf)
          dsimp only
          omega
      have hiff := ih hnext hlater' hrest (fun f hf => hfilled f (List.mem_cons_of_mem e hf)) htail
      rwa [List.append_assoc] at hiff

/-! ## The greedy selection -/

/-- Whether `s` goes through `fixes` by their start, of those that start together the longest first,
    and takes each that overlaps none taken before. The fixes are `marked` in this order, each with
    whether it is taken. -/
structure IsGreedy (s : Selection) (fixes : List Fix) (marked : List (Fix × Bool)) : Prop where
  /-- All `fixes` are gone through, each of them once. -/
  perm : (marked.map (·.1)).Perm fixes
  sorted : (marked.map (·.1)).Pairwise fun f g => f.span.start < g.span.start ∨
    f.span.start = g.span.start ∧ g.span.stop ≤ f.span.stop
  /-- Those for one `span` are gone through as they came. -/
  stable : ∀ span, (marked.map (·.1)).filter (·.span = span) = fixes.filter (·.span = span)
  taken : s.taken = (marked.filter (·.2)).map (·.1)
  deferred : s.deferred = (marked.filter (!·.2)).map (·.1)
  /-- A fix is left out just when it overlaps one that comes earlier and is taken. -/
  left_out : ∀ before f isTaken after, marked = before ++ (f, isTaken) :: after →
    (isTaken = false ↔ ∃ g, (g, true) ∈ before ∧ g.span.overlaps f.span = true)
  /-- Each fix that is taken ends where the next one starts or ahead of it. -/
  apart : s.taken.Pairwise fun f g => f.span.stop ≤ g.span.start ∧
    f.span.overlaps g.span = false ∧ g.span.overlaps f.span = false
  /-- No fix is lost, and none comes twice. -/
  whole : (s.taken ++ s.deferred).Perm fixes
  /-- Each fix in `s.deferred` is put on record once. -/
  log : s.log = s.deferred.map fun f => {
    level := .debug, origin := .fixer
    message := "Deferring overlapping fix at [" ++ toString f.span.start ++ ", "
      ++ toString f.span.stop ++ ")" }

/-- The selection `ofFixes` among fixes whose ranges hold bytes `IsGreedy`. -/
theorem ofFixes_isGreedy (fixes : List Fix)
    (h : ∀ f ∈ fixes, 0 ≤ f.span.start ∧ f.span.start < f.span.stop) :
    ∃ marked, (ofFixes fixes).IsGreedy fixes marked := by
  have hfst := map_fst_marksFrom (-1) (ordered fixes)
  have hmarks := startingAt_eq_marks (-1) (ordered fixes)
  have hordered : ∀ f ∈ ordered fixes, 0 ≤ f.span.start ∧ f.span.start < f.span.stop :=
    fun f hf => h f ((ordered_perm fixes).mem_iff.1 hf)
  have hnone : Remembers (-1) [] := ⟨fun g hg => absurd hg List.not_mem_nil, .inl (by decide)⟩
  refine ⟨marksFrom (-1) (ordered fixes), ?_, ?_, ?_, ?_, ?_, ?_, ?_, ofFixes_perm fixes, rfl⟩
  · rw [hfst]
    exact ordered_perm fixes
  · rw [hfst]
    exact (pairwise_ordered fixes).imp precedes_iff.1
  · rw [hfst]
    exact fun span => filter_ordered span fixes
  · rw [ofFixes, hmarks]
  · rw [ofFixes, hmarks]
  · intro before f isTaken after heq
    exact mark_eq_false_iff hnone (fun m hm => absurd hm List.not_mem_nil)
      (pairwise_ordered fixes) hordered heq
  · have htaken := (inOrder_startingAt (-1) (ordered fixes)).pairwise fun f hf =>
      Int.le_of_lt (h f (mem_of_mem_taken hf)).2
    exact htaken.2.imp fun hle => ⟨hle, Span.overlaps_eq_false hle⟩

/-- Two fixes for `[0, 5)`, one inside it and one that starts where it ends: the second and the
    third are deferred. -/
theorem ofFixes_isGreedy_fourFixes :
    (∀ f ∈ [(⟨⟨0, 5⟩, "a"⟩ : Fix), ⟨⟨0, 5⟩, "b"⟩, ⟨⟨2, 4⟩, "c"⟩, ⟨⟨5, 7⟩, "d"⟩],
      0 ≤ f.span.start ∧ f.span.start < f.span.stop) ∧
    ofFixes [⟨⟨0, 5⟩, "a"⟩, ⟨⟨0, 5⟩, "b"⟩, ⟨⟨2, 4⟩, "c"⟩, ⟨⟨5, 7⟩, "d"⟩]
      = ⟨[⟨⟨0, 5⟩, "a"⟩, ⟨⟨5, 7⟩, "d"⟩], [⟨⟨0, 5⟩, "b"⟩, ⟨⟨2, 4⟩, "c"⟩]⟩ ∧
    ∃ marked, IsGreedy ⟨[⟨⟨0, 5⟩, "a"⟩, ⟨⟨5, 7⟩, "d"⟩], [⟨⟨0, 5⟩, "b"⟩, ⟨⟨2, 4⟩, "c"⟩]⟩
      [⟨⟨0, 5⟩, "a"⟩, ⟨⟨0, 5⟩, "b"⟩, ⟨⟨2, 4⟩, "c"⟩, ⟨⟨5, 7⟩, "d"⟩] marked := by
  have hfilled : ∀ f ∈ [(⟨⟨0, 5⟩, "a"⟩ : Fix), ⟨⟨0, 5⟩, "b"⟩, ⟨⟨2, 4⟩, "c"⟩, ⟨⟨5, 7⟩, "d"⟩],
      0 ≤ f.span.start ∧ f.span.start < f.span.stop := by decide
  have heq : ofFixes [⟨⟨0, 5⟩, "a"⟩, ⟨⟨0, 5⟩, "b"⟩, ⟨⟨2, 4⟩, "c"⟩, ⟨⟨5, 7⟩, "d"⟩]
      = ⟨[⟨⟨0, 5⟩, "a"⟩, ⟨⟨5, 7⟩, "d"⟩], [⟨⟨0, 5⟩, "b"⟩, ⟨⟨2, 4⟩, "c"⟩]⟩ := by
    rw [ofFixes_of_pairwise (by decide)]
    rfl
  have hgreedy := ofFixes_isGreedy _ hfilled
  rw [heq] at hgreedy
  exact ⟨hfilled, heq, hgreedy⟩

end Selection

end ArrowLint
