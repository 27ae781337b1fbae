/-
  ArrowLint.Proofs.Syntax.Nesting

  How the nodes of one tree lie to one another. Either one of two nodes contains the other, or
  they are found at different children of one node, and then one of them lies ahead of the
  other (`Node.Contains.total`). No node lies in two children of another one
  (`Node.eq_of_contains`), and the nodes above a node are those that it lies below
  (`Node.mem_ancestors_iff`). In an orderly tree the ranges follow suit:

    * what a node contains lies in its range (`Node.Contains.range`);
    * what lies ahead has ended when the other starts (`Node.IsAhead.stop_le_start`);
    * what lies behind a child is none of the tokens before it
      (`Node.not_mem_tokensBefore_of_behind`).
-/

import ArrowLint.Proofs.Syntax.Parsed

namespace ArrowLint

namespace Node

variable {n m p a b : Node} {before after : List Node}

/-! ## Places in one tree -/

/-- Whether `n` lies ahead of `m`: they are found at two children of some node, the child of `n`
    ahead of that of `m`. -/
def IsAhead (n m : Node) : Prop :=
  ∃ (p : Node) (before : List Node) (a : Node) (after : List Node), ∃ b ∈ after,
    p.children = before ++ a :: after ∧ a.Contains n ∧ b.Contains m

/-- Of nodes at different children of `p`, one `IsAhead` of the other. -/
theorem isAhead_or_isAhead (ha : a ∈ p.children) (hb : b ∈ p.children) (hne : a ≠ b)
    (hn : a.Contains n) (hm : b.Contains m) : n.IsAhead m ∨ m.IsAhead n := by
  obtain ⟨before, after, hc⟩ := List.mem_iff_append.1 ha
  rw [hc, List.mem_append, List.mem_cons] at hb
  rcases hb with hb | rfl | hb
  · -- the other child comes first, and this one somewhere behind it
    obtain ⟨first, between, rfl⟩ := List.mem_iff_append.1 hb
    refine .inr ⟨p, first, b, between ++ a :: after, a, ?_, ?_, hm, hn⟩
    · exact List.mem_append_right between List.mem_cons_self
    · rw [hc, List.append_assoc, List.cons_append]
  · exact absurd rfl hne
  · exact .inl ⟨p, before, a, after, b, hb, hc, hn, hm⟩

/-- Of two nodes below a third, one `Contains` the other or one `IsAhead` of the other. -/
theorem Contains.total {r : Node} (hn : r.Contains n) (hm : r.Contains m) :
    n.Contains m ∨ m.Contains n ∨ n.IsAhead m ∨ m.IsAhead n := by
  induction hn with
  | self => exact .inl hm
  | @inside r a n ha hn ih =>
    cases hm with
    | self => exact .inr (.inl (.inside ha hn))
    | @inside _ b _ hb hm =>
      -- as long as both lie at one child, that child takes the place of the node above
      by_cases hab : a = b
      · exact ih (hab ▸ hm)
      · exact .inr (.inr (isAhead_or_isAhead ha hb hab hn hm))

/-- A node that `n` contains is `n`, or its parent is one that `n` contains. -/
theorem Contains.eq_or_exists_parent (h : n.Contains m) :
    m = n ∨ ∃ p, n.Contains p ∧ m.parent = some p := by
  induction h with
  | self => exact .inl rfl
  | @inside n c m hc h ih =>
    rcases ih with rfl | ⟨p, hp, hm⟩
    · exact .inr ⟨n, .self n, parent_of_mem_children hc⟩
    · exact .inr ⟨p, .inside hc hp, hm⟩

/-- The first step of `m.path` leads to its parent, and the rest is the parent's. -/
theorem path_of_parent (h : m.parent = some n) :
    ∃ s, m.path = s :: n.path ∧ s.rebuild m.tree = n.tree := by
  obtain ⟨tree, path⟩ := m
  cases path with
  | nil => cases h
  | cons s above =>
    obtain rfl := Option.some.inj h
    exact ⟨s, rfl, rfl⟩

/-- The path of a node that `n` contains ends in that of `n`. -/
theorem Contains.path_suffix (h : n.Contains m) : n.path <:+ m.path := by
  induction h with
  | self => exact List.suffix_rfl
  | inside child _ ih =>
    obtain ⟨s, hpath, -⟩ := path_of_parent (parent_of_mem_children child)
    rw [hpath] at ih
    exact (List.suffix_cons s _).trans ih

/-- Whether `m` lies below `n`. -/
def IsBelow (m n : Node) : Prop :=
  n.Contains m ∧ m ≠ n

/-- A node that `n` contains and that is no further down than `n` is `n`. -/
theorem Contains.eq_of_length_le (h : n.Contains m) (hl : m.path.length ≤ n.path.length) :
    m = n := by
  rcases h.eq_or_exists_parent with rfl | ⟨p, hp, hm⟩
  · rfl
  · obtain ⟨s, hs, -⟩ := path_of_parent hm
    have hlength := hp.path_suffix.length_le
    rw [hs, List.length_cons] at hl
    omega

theorem Contains.antisymm (h : n.Contains m) (h' : m.Contains n) : m = n :=
  h.eq_of_length_le h'.path_suffix.length_le

theorem isBelow_of_parent (h : m.parent = some n) : m.IsBelow n := by
  refine ⟨contains_of_mem_children (mem_children_iff.2 h), ?_⟩
  rintro rfl
  obtain ⟨s, hs, -⟩ := path_of_parent h
  exact absurd (congrArg List.length hs) (by simp)

theorem IsBelow.of_contains (h : a.Contains n) (hm : m.IsBelow n) : m.IsBelow a := by
  refine ⟨h.trans hm.1, ?_⟩
  rintro rfl
  exact hm.2 (hm.1.antisymm h)

/-- The `ancestors` of `n` are those that it `IsBelow`. -/
theorem mem_ancestors_iff : a ∈ n.ancestors ↔ n.IsBelow a := by
  obtain ⟨tree, path⟩ := n
  induction path generalizing tree with
  | nil =>
    refine iff_of_false (by simp [ancestors, climb]) fun ⟨hc, hne⟩ => hne ?_
    exact hc.eq_of_length_le (Nat.zero_le _)
  | cons s above ih =>
    have hp : (⟨tree, s :: above⟩ : Node).parent = some ⟨s.rebuild tree, above⟩ := rfl
    rw [ancestors_of_parent hp, List.mem_cons, ih]
    constructor
    · rintro (rfl | h)
      · exact isBelow_of_parent hp
      · exact (isBelow_of_parent hp).of_contains h.1
    · rintro ⟨hc, hne⟩
      -- what contains a node from above contains its parent
      rcases hc.eq_or_exists_parent with h | ⟨p, hap, hparent⟩
      · exact absurd h hne
      · obtain rfl := Option.some.inj (hp.symm.trans hparent)
        by_cases hpa : (⟨s.rebuild tree, above⟩ : Node) = a
        · exact .inl hpa.symm
        · exact .inr ⟨hap, hpa⟩

/-- Behind `a` among the `ancestors` of a node come those of `a`. -/
theorem ancestors_of_append (h : n.ancestors = before ++ a :: after) : a.ancestors = after := by
  obtain ⟨tree, path⟩ := n
  induction path generalizing tree before with
  | nil => simp [ancestors, climb] at h
  | cons s above ih =>
    have hp : (⟨tree, s :: above⟩ : Node).parent = some ⟨s.rebuild tree, above⟩ := rfl
    rw [ancestors_of_parent hp] at h
    cases before with
    | nil =>
      obtain ⟨rfl, hafter⟩ := List.cons.inj h
      exact hafter
    | cons b before => exact ih _ (List.cons.inj h).2

theorem rebuild_injective {s : Step} {t u : Tree} (h : s.rebuild t = s.rebuild u) :
    t = u := by
  have htrees := (Tree.node.inj h).2
  exact (List.cons.inj (List.append_cancel_left htrees)).1

/-- No node lies in two children of `p`. -/
theorem eq_of_contains (ha : a ∈ p.children) (hb : b ∈ p.children) (hma : a.Contains m)
    (hmb : b.Contains m) : a = b := by
  obtain ⟨s, hs, htree⟩ := path_of_parent (parent_of_mem_children ha)
  obtain ⟨u, hu, htree'⟩ := path_of_parent (parent_of_mem_children hb)
  have hlength : a.path.length = b.path.length := by rw [hs, hu]; rfl
  -- both ways up are the same part of the way up from below
  have hpath : a.path = b.path :=
    (List.suffix_of_suffix_length_le hma.path_suffix hmb.path_suffix
      (Nat.le_of_eq hlength)).eq_of_length hlength
  obtain rfl : s = u := by
    rw [hs, hu] at hpath
    exact (List.cons.inj hpath).1
  obtain ⟨tree, path⟩ := a
  obtain ⟨tree', path'⟩ := b
  obtain rfl : tree = tree' := rebuild_injective (htree.trans htree'.symm)
  obtain rfl : path = path' := hpath
  rfl

theorem nextSibling_of_spread {label : Label} {above : List Step} {passed trees : List Tree}
    (h : spread label above passed trees = before ++ a :: after) : a.nextSibling = after.head? := by
  induction trees generalizing passed before with
  | nil => cases before <;> cases h
  | cons t trees ih =>
    cases before with
    | nil =>
      obtain ⟨rfl, rfl⟩ := List.cons.inj h
      cases trees with
      | nil => rfl
      | cons s trees => rfl
    | cons b before => exact ih (List.cons.inj h).2

/-- The `nextSibling` of a child is the child behind it. -/
theorem nextSibling_of_children (h : p.children = before ++ a :: after) :
    a.nextSibling = after.head? :=
  nextSibling_of_spread h

/-! ## Ranges in orderly trees -/

theorem range_of_mem_children (ho : n.whole.IsOrderly) (h : m ∈ n.children) :
    n.start ≤ m.start ∧ m.stop ≤ n.stop :=
  ho.nested n n.mem_walk_root m h

/-- In a tree that `IsOrderly`, what `n` contains lies in its range. -/
theorem Contains.range (ho : n.whole.IsOrderly) (h : n.Contains m) :
    n.start ≤ m.start ∧ m.stop ≤ n.stop := by
  induction h with
  | self => exact ⟨Nat.le_refl _, Nat.le_refl _⟩
  | @inside n c m hc h ih =>
    have hchild := range_of_mem_children ho hc
    have hrest := ih (by rwa [whole_of_mem_children hc])
    omega

theorem stop_le_start_of_children (ho : p.whole.IsOrderly)
    (h : p.children = before ++ a :: after) (hb : b ∈ after) : a.stop ≤ b.start := by
  have hpair := ho.ordered p p.mem_walk_root
  rw [h] at hpair
  exact List.rel_of_pairwise_cons (List.pairwise_append.1 hpair).2.1 hb

/-- In a tree that `IsOrderly`, a node that `IsAhead` of `m` has ended when `m` starts. -/
theorem IsAhead.stop_le_start (ho : n.whole.IsOrderly) (h : n.IsAhead m) : n.stop ≤ m.start := by
  obtain ⟨p, before, a, after, b, hb, hc, hn, hm⟩ := h
  have ha : a ∈ p.children := by rw [hc]; simp
  have hb' : b ∈ p.children := by rw [hc]; simp [hb]
  have hp : p.whole.IsOrderly := by rwa [← whole_of_mem_children ha, ← hn.whole_eq]
  have hna := hn.range (by rwa [whole_of_mem_children ha])
  have hmb := hm.range (by rwa [whole_of_mem_children hb'])
  have hab := stop_le_start_of_children hp hc hb
  omega

/-! ## Tokens ahead of a child -/

variable {source : String} {stop : Node}

/-- In a parse, a child behind `stop` is not among `tokensBefore` it. -/
theorem not_mem_tokensBefore_of_behind (h : p.whole.IsParseOf source)
    (hc : p.children = before ++ stop :: after) (hb : b ∈ after) :
    b ∉ p.tokensBefore (some stop) := by
  intro hmem
  have hstarts : b.start < stop.start := by
    simpa using List.all_eq_true.1 List.all_takeWhile b hmem
  have hs : stop ∈ p.children := by rw [hc]; simp
  have hrange : stop.start ≤ stop.stop := start_le_stop (by rwa [whole_of_mem_children hs])
  have hbehind := stop_le_start_of_children h.toIsOrderly hc hb
  omega

end Node

end ArrowLint
