/-
  ArrowLint.Proofs.Syntax.Place

  Where nodes stand. A node carries its way up, so it determines the tree it is a place
  of (`Node.whole`), and no step of the linter leaves that tree: the parent, the ancestors,
  the children, the fields, the siblings and all that a walk meets have the same one.

    * `Node.Contains n m` says that `m` is `n` or lies somewhere below it;
    * `Node.mem_walk_iff`: a walk lists just these nodes;
    * `Node.root_contains`: every node lies in the tree that it is a place of, so what holds
      of all nodes of a tree holds of every node whose `whole` it is.
-/

import ArrowLint.Syntax.Node

namespace ArrowLint

namespace Node

/-! ## Children and parents -/

/-- Neighbours `ys` behind `xs` are spread as they would be with `xs` among those passed before. -/
theorem spread_append (label : Label) (above : List Step) (before xs ys : List Tree) :
    ∃ passed, spread label above before (xs ++ ys)
      = passed ++ spread label above (xs.reverse ++ before) ys := by
  induction xs generalizing before with
  | nil => exact ⟨[], rfl⟩
  | cons x xs ih =>
    obtain ⟨passed, h⟩ := ih (x :: before)
    refine ⟨⟨x, ⟨label, before, xs ++ ys⟩ :: above⟩ :: passed, ?_⟩
    rw [List.cons_append, spread, h, List.reverse_cons, List.append_assoc]
    rfl

/-- Among the children of its parent, a node stands between those `passed` and the neighbours behind
    it. -/
theorem children_of_parent {n p : Node} {s : Step} {above : List Step} (hs : n.path = s :: above)
    (hp : n.parent = some p) :
    ∃ passed, p.children = passed ++ n :: spread s.label above (n.tree :: s.before) s.after := by
  obtain ⟨tree, path⟩ := n
  cases hs
  obtain rfl := Option.some.inj hp
  obtain ⟨passed, h⟩ := spread_append s.label above [] s.before.reverse (tree :: s.after)
  refine ⟨passed, ?_⟩
  rw [List.reverse_reverse, List.append_nil, spread] at h
  exact h

/-- The `children` of `p` are the nodes that have `p` for their parent. -/
theorem mem_children_iff {n p : Node} : n ∈ p.children ↔ n.parent = some p := by
  refine ⟨parent_of_mem_children, fun hp => ?_⟩
  cases hs : n.path with
  | nil => simp [parent, hs] at hp
  | cons s above =>
    obtain ⟨passed, h⟩ := children_of_parent hs hp
    rw [h]
    exact List.mem_append_right passed List.mem_cons_self

/-- A node that `isParentField` is what its parent has in that field. -/
theorem field_of_isParentField {n p : Node} {f : Field} (hp : n.parent = some p)
    (h : n.isParentField f = true) : p.field f = some n := by
  cases hs : n.path with
  | nil => simp [parent, hs] at hp
  | cons s above =>
    obtain ⟨passed, hc⟩ := children_of_parent hs hp
    simp only [isParentField, hs, Bool.and_eq_true, List.all_eq_true, Bool.not_eq_true'] at h
    obtain ⟨hfills, hbefore⟩ := h
    -- the trees that are passed on the way to the node are those before it
    have htrees : passed.map (·.tree) = s.before.reverse := by
      have hmap := p.children_map_tree
      rw [hc, List.map_append, List.map_cons, spread_map_tree] at hmap
      have hparent : p.tree.children = s.before.reverse ++ n.tree :: s.after := by
        simp only [parent, hs, Option.some.injEq] at hp
        rw [← hp]
        rfl
      exact List.append_cancel_right (hmap.trans hparent)
    have hpassed : passed.find? (·.tree.fills f) = none := by
      rw [List.find?_eq_none]
      intro m hm
      have htree := List.mem_map_of_mem (f := Node.tree) hm
      rw [htrees, List.mem_reverse] at htree
      simp [hbefore _ htree]
    rw [field, hc, List.find?_append, hpassed, Option.none_or]
    exact List.find?_cons_of_pos hfills

/-- The `ancestors` of `m` are its parent and those above that. -/
theorem ancestors_of_parent {n m : Node} (h : m.parent = some n) :
    m.ancestors = n :: n.ancestors := by
  obtain ⟨tree, path⟩ := m
  cases path with
  | nil => cases h
  | cons s above =>
    obtain rfl := Option.some.inj h
    rfl

/-- The `nextSibling` of a node comes directly behind it among the children of their parent. -/
theorem children_of_nextSibling {n m : Node} (h : n.nextSibling = some m) :
    ∃ p before after, n.parent = some p ∧ p.children = before ++ n :: m :: after := by
  cases hs : n.path with
  | nil => simp [nextSibling, hs] at h
  | cons s above =>
    cases ha : s.after with
    | nil => simp [nextSibling, hs, ha] at h
    | cons t after =>
      have hp : n.parent = some ⟨s.rebuild n.tree, above⟩ := by simp [parent, hs]
      obtain ⟨passed, hc⟩ := children_of_parent hs hp
      -- the first tree after the node's own is the one that the sibling has
      simp only [nextSibling, hs, ha, Option.some.injEq] at h
      rw [ha, spread, h] at hc
      exact ⟨_, passed, _, hp, hc⟩

theorem field_mem_children {n m : Node} {f : Field} (h : n.field f = some m) :
    m ∈ n.children :=
  List.mem_of_find?_eq_some h

/-- What `fieldText` gives is empty, or the text of the node that is held there. -/
theorem eq_empty_or_exists_of_fieldText {n : Node} {f : Field} {text : String}
    (h : n.fieldText f = .ok text) :
    text = "" ∨ ∃ m, n.field f = some m ∧ m.text = .ok text := by
  unfold fieldText at h
  cases hf : n.field f with
  | none =>
    rw [hf] at h
    exact .inl (Except.ok.inj h).symm
  | some m =>
    rw [hf] at h
    exact .inr ⟨m, rfl, h⟩

theorem mem_children_of_mem_statements {n m : Node} (h : m ∈ n.statements) : m ∈ n.children :=
  (List.mem_filter.1 (List.mem_filter.1 h).1).1

theorem mem_children_of_mem_tokensBefore {n m : Node} {stop : Option Node}
    (h : m ∈ n.tokensBefore stop) : m ∈ n.children := by
  cases stop with
  | none => exact h
  | some stop => exact (List.takeWhile_sublist _).subset h

/-! ## The tree a node is a place of -/

/-- The tree that `n` is a place of. -/
def whole (n : Node) : Tree :=
  n.path.foldl (fun t s => s.rebuild t) n.tree

@[simp] theorem whole_root (t : Tree) : (root t).whole = t := rfl

theorem whole_of_parent {n p : Node} (h : n.parent = some p) : p.whole = n.whole := by
  obtain ⟨tree, path⟩ := n
  cases path with
  | nil => cases h
  | cons s above =>
    obtain rfl := Option.some.inj h
    rfl

theorem whole_of_mem_children {n m : Node} (h : m ∈ n.children) : m.whole = n.whole :=
  (whole_of_parent (parent_of_mem_children h)).symm

theorem whole_of_field {n m : Node} {f : Field} (h : n.field f = some m) : m.whole = n.whole :=
  whole_of_mem_children (field_mem_children h)

theorem whole_of_nextSibling {n m : Node} (h : n.nextSibling = some m) : m.whole = n.whole := by
  obtain ⟨p, before, after, hp, hc⟩ := children_of_nextSibling h
  have hm : m ∈ p.children := by rw [hc]; simp
  rw [whole_of_mem_children hm, whole_of_parent hp]

theorem whole_of_mem_climb {t : Tree} {path : List Step} {a : Node} (h : a ∈ climb t path) :
    a.whole = whole ⟨t, path⟩ := by
  induction path generalizing t with
  | nil => cases h
  | cons s above ih =>
    rcases List.mem_cons.1 h with rfl | h
    · rfl
    · exact ih h

theorem whole_of_mem_ancestors {n a : Node} (h : a ∈ n.ancestors) : a.whole = n.whole :=
  whole_of_mem_climb h

/-! ## What lies below a node -/

/-- A node contains itself, and what its `children` contain. -/
inductive Contains : Node → Node → Prop
  | self (n : Node) : Contains n n
  | inside {n c m : Node} (child : c ∈ n.children) (rest : Contains c m) : Contains n m

theorem Contains.trans {a b c : Node} (hab : a.Contains b) (hbc : b.Contains c) :
    a.Contains c := by
  induction hab with
  | self => exact hbc
  | inside child _ ih => exact .inside child (ih hbc)

theorem contains_of_mem_children {n m : Node} (h : m ∈ n.children) : n.Contains m :=
  .inside h (.self m)

theorem Contains.whole_eq {n m : Node} (h : n.Contains m) : m.whole = n.whole := by
  induction h with
  | self => rfl
  | inside child _ ih => rw [ih, whole_of_mem_children child]

/-- A `visitForest` is a `walk` from each of the neighbours in turn. -/
theorem visitForest_eq (label : Label) (above : List Step) (before trees : List Tree) :
    visitForest label above before trees = (spread label above before trees).flatMap walk := by
  induction trees generalizing before with
  | nil => rfl
  | cons t after ih => rw [visitForest, ih, spread, List.flatMap_cons, walk]

/-- A `walk` lists the node itself and then walks from each of its children. -/
theorem walk_eq (n : Node) : n.walk = n :: n.children.flatMap walk := by
  obtain ⟨⟨label, trees⟩, path⟩ := n
  -- what is left of the walk starts from the neighbours below, none of them passed yet
  rw [walk, visit, visitForest_eq]
  rfl

mutual

theorem contains_of_mem_visit {above : List Step} {t : Tree} {m : Node}
    (h : m ∈ visit above t) : Contains ⟨t, above⟩ m := by
  match t with
  | .node label trees =>
    rw [visit] at h
    rcases List.mem_cons.1 h with rfl | h
    · exact .self _
    · obtain ⟨c, hc, hm⟩ := contains_of_mem_visitForest h
      exact .inside hc hm

theorem contains_of_mem_visitForest {label : Label} {above : List Step} {before trees : List Tree}
    {m : Node} (h : m ∈ visitForest label above before trees) :
    ∃ c ∈ spread label above before trees, Contains c m := by
  match trees with
  | [] => cases h
  | t :: after =>
    rw [visitForest] at h
    rcases List.mem_append.1 h with h | h
    · exact ⟨_, List.mem_cons_self, contains_of_mem_visit h⟩
    · obtain ⟨c, hc, hm⟩ := contains_of_mem_visitForest h
      exact ⟨c, List.mem_cons_of_mem _ hc, hm⟩

end

/-- A `walk` lists the nodes that `n` `Contains`. -/
theorem mem_walk_iff {n m : Node} : m ∈ n.walk ↔ n.Contains m := by
  refine ⟨contains_of_mem_visit, fun h => ?_⟩
  induction h with
  | self n =>
    rw [walk_eq]
    exact List.mem_cons_self
  | inside child _ ih =>
    rw [walk_eq]
    exact List.mem_cons_of_mem _ (List.mem_flatMap.2 ⟨_, child, ih⟩)

theorem whole_of_mem_walk {n m : Node} (h : m ∈ n.walk) : m.whole = n.whole :=
  (mem_walk_iff.1 h).whole_eq

/-- Every node lies in the tree `whole` that it is a place of. -/
theorem root_contains (n : Node) : (root n.whole).Contains n := by
  obtain ⟨tree, path⟩ := n
  induction path generalizing tree with
  | nil => exact .self _
  | cons s above ih =>
    -- the parent lies in the same tree, and the node is one of its children
    exact (ih (s.rebuild tree)).trans (contains_of_mem_children (mem_children_iff.2 rfl))

theorem mem_walk_root (n : Node) : n ∈ (root n.whole).walk :=
  mem_walk_iff.2 n.root_contains

/-- The label of a node is one of those of the tree `whole`. -/
theorem label_mem_whole (n : Node) : n.label ∈ n.whole.labels := by
  have h := List.mem_map_of_mem (f := Node.label) n.mem_walk_root
  rwa [walk_map_label] at h

end Node

end ArrowLint
