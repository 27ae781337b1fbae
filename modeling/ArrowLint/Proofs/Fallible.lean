/-
  ArrowLint.Proofs.Fallible

  Computations that may fail, taken apart. A chain has a result just when each of its links
  has one, going through a list has one just when every element has, and a search finds
  nothing just when it has looked at every element in vain.
-/

namespace ArrowLint

variable {ε α β : Type}

/-! ## One computation after another -/

theorem map_eq_ok_iff {x : Except ε α} {f : α → β} {b : β} :
    x.map f = .ok b ↔ ∃ a, x = .ok a ∧ f a = b := by
  cases x with
  | error e => simp [Except.map]
  | ok a => simp [Except.map]

theorem bind_eq_ok_iff {x : Except ε α} {f : α → Except ε β} {b : β} :
    x >>= f = .ok b ↔ ∃ a, x = .ok a ∧ f a = .ok b := by
  cases x with
  | error e => simp [bind, Except.bind]
  | ok a => simp [bind, Except.bind]

theorem exists_map_eq_ok {x : Except ε α} (f : α → β) (h : ∃ a, x = .ok a) :
    ∃ b, x.map f = .ok b := by
  obtain ⟨a, rfl⟩ := h
  exact ⟨f a, rfl⟩

/-! ## Going through a list -/

/-- The results `ys` of `xs.mapM f` are those of its elements, one by one. -/
theorem mapM_eq_ok_iff {f : α → Except ε β} {xs : List α} {ys : List β} :
    xs.mapM f = .ok ys ↔ xs.map f = ys.map .ok := by
  induction xs generalizing ys with
  | nil =>
    cases ys with
    | nil => simp [pure, Except.pure]
    | cons y ys => simp [pure, Except.pure]
  | cons x xs ih =>
    rw [List.mapM_cons, bind_eq_ok_iff, List.map_cons]
    constructor
    · rintro ⟨y, hy, h⟩
      obtain ⟨zs, hzs, h⟩ := bind_eq_ok_iff.1 h
      obtain rfl := Except.ok.inj h
      rw [hy, ih.1 hzs, List.map_cons]
    · intro h
      cases ys with
      | nil => cases h
      | cons y zs =>
        obtain ⟨hy, hzs⟩ := List.cons.inj h
        refine ⟨y, hy, ?_⟩
        rw [ih.2 hzs]
        rfl

theorem exists_mapM_eq_ok {f : α → Except ε β} {xs : List α} (h : ∀ x ∈ xs, ∃ y, f x = .ok y) :
    ∃ ys, xs.mapM f = .ok ys := by
  induction xs with
  | nil => exact ⟨[], rfl⟩
  | cons x xs ih =>
    obtain ⟨y, hy⟩ := h x List.mem_cons_self
    obtain ⟨ys, hys⟩ := ih fun z hz => h z (List.mem_cons_of_mem x hz)
    exact ⟨y :: ys, by rw [List.mapM_cons, hy, hys]; rfl⟩

/-- Each result of `xs.mapM f` comes from an element of `xs`. -/
theorem exists_of_mem_of_mapM_eq_ok {f : α → Except ε β} {xs : List α} {ys : List β}
    (h : xs.mapM f = .ok ys) {y : β} (hy : y ∈ ys) : ∃ x ∈ xs, f x = .ok y := by
  have hm : Except.ok y ∈ xs.map f := by
    rw [mapM_eq_ok_iff.1 h]
    exact List.mem_map_of_mem hy
  exact List.mem_map.1 hm

/-! ## Searching a list -/

/-- Searching `xs.map g` is searching `xs` with `f` after `g`. -/
theorem findSomeM?_map {γ : Type} {f : β → Except ε (Option γ)} (g : α → β) (xs : List α) :
    (xs.map g).findSomeM? f = xs.findSomeM? fun x => f (g x) := by
  induction xs with
  | nil => rfl
  | cons x xs ih => rw [List.map_cons, List.findSomeM?_cons, List.findSomeM?_cons, ih]

/-- A search that answers `none` has asked all elements, and `f` has found nothing in any of
    them. -/
theorem findSomeM?_eq_ok_none_iff {f : α → Except ε (Option β)} {xs : List α} :
    xs.findSomeM? f = .ok none ↔ ∀ x ∈ xs, f x = .ok none := by
  induction xs with
  | nil => simp [pure, Except.pure]
  | cons x xs ih =>
    rw [List.findSomeM?_cons, bind_eq_ok_iff, List.forall_mem_cons, ← ih]
    constructor
    · rintro ⟨found, hx, h⟩
      -- a find would have ended the search with an answer
      cases found with
      | none => exact ⟨hx, h⟩
      | some b => cases h
    · rintro ⟨hx, h⟩
      exact ⟨none, hx, h⟩

/-- What `findSomeM?` finds is what `f` finds in the first of the elements that have it. -/
theorem exists_append_of_findSomeM?_eq_ok_some {f : α → Except ε (Option β)} {xs : List α} {b : β}
    (h : xs.findSomeM? f = .ok (some b)) :
    ∃ before x after, xs = before ++ x :: after ∧ f x = .ok (some b) ∧
      ∀ y ∈ before, f y = .ok none := by
  induction xs with
  | nil => cases h
  | cons x xs ih =>
    rw [List.findSomeM?_cons] at h
    obtain ⟨found, hx, h⟩ := bind_eq_ok_iff.1 h
    cases found with
    | none =>
      obtain ⟨before, y, after, rfl, hy, hbefore⟩ := ih h
      exact ⟨x :: before, y, after, rfl, hy, List.forall_mem_cons.2 ⟨hx, hbefore⟩⟩
    | some c =>
      obtain rfl := Option.some.inj (Except.ok.inj h)
      exact ⟨[], x, xs, rfl, hx, by simp⟩

theorem exists_of_findSomeM?_eq_ok_some {f : α → Except ε (Option β)} {xs : List α} {b : β}
    (h : xs.findSomeM? f = .ok (some b)) : ∃ x ∈ xs, f x = .ok (some b) := by
  obtain ⟨before, x, after, rfl, hx, -⟩ := exists_append_of_findSomeM?_eq_ok_some h
  exact ⟨x, by simp, hx⟩

theorem exists_findSomeM?_eq_ok {f : α → Except ε (Option β)} {xs : List α}
    (h : ∀ x ∈ xs, ∃ found, f x = .ok found) : ∃ found, xs.findSomeM? f = .ok found := by
  induction xs with
  | nil => exact ⟨none, rfl⟩
  | cons x xs ih =>
    obtain ⟨found, hx⟩ := h x List.mem_cons_self
    obtain ⟨rest, hrest⟩ := ih fun y hy => h y (List.mem_cons_of_mem x hy)
    rw [List.findSomeM?_cons, hx]
    -- the rest counts only while nothing has been found
    cases found with
    | none => exact ⟨rest, hrest⟩
    | some b => exact ⟨some b, rfl⟩

end ArrowLint
