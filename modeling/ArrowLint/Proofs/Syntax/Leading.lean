/-
  ArrowLint.Proofs.Syntax.Leading

  Tokens before a child. Which children stand before one of their siblings is told from where they
  start, and the first that does not start before it ends the search; `Node.HasBefore` says the same
  of their places. In every tree the tokens found are the first of those before the sibling
  (`Node.tokensBefore_of_children`). Where siblings are ordered and disjoint (`Tree.IsSequential`),
  those left out are empty (`Node.exists_missed`), so the search detects every token but an empty
  one, and none that stands elsewhere (`Node.detects_tokensBefore`).
-/

import Mathlib.Data.List.Basic
import Mathlib.Data.List.Chain
import ArrowLint.Proofs.Syntax.Preorder

namespace ArrowLint

/-! ## Siblings in order -/

namespace Node

/-- The number of bytes that a node spans. -/
def width (n : Node) : Nat :=
  n.stop - n.start

/-- Whether `n` starts no later than `m`, and has ended by then. -/
def EndsBefore (n m : Node) : Prop :=
  n.start ≤ m.start ∧ n.stop ≤ m.start

instance : Trans EndsBefore EndsBefore EndsBefore where
  trans hnm hmk := ⟨Nat.le_trans hnm.1 hmk.1, Nat.le_trans hnm.2 hmk.1⟩

end Node

namespace Tree

variable {t : Tree}

/-- Whether siblings are ordered and disjoint, each one and the next. Where no node ends before it
    starts, it is enough that each one has ended when the next one starts
    (`isSequential_of_range`). -/
def IsSequential (t : Tree) : Prop :=
  ∀ n ∈ (Node.root t).walk, n.children.IsChain Node.EndsBefore

theorem isSequential_of_range (hrange : ∀ n ∈ (Node.root t).walk, n.start ≤ n.stop)
    (hnext : ∀ n ∈ (Node.root t).walk, n.children.IsChain fun a b => a.stop ≤ b.start) :
    t.IsSequential := by
  intro n hn
  refine (hnext n hn).imp_of_mem_imp fun a b ha _ hab => ⟨?_, hab⟩
  have hwalk : a ∈ (Node.root t).walk := by
    have ha' := Node.mem_walk_root a
    rwa [Node.whole_of_mem_children ha, Node.whole_of_mem_walk hn] at ha'
  exact Nat.le_trans (hrange a hwalk) hab

theorem IsParseOf.isSequential {source : String} (h : t.IsParseOf source) : t.IsSequential :=
  isSequential_of_range h.start_le_stop fun n hn => (h.ordered n hn).isChain

end Tree

namespace Node

variable {n m t stop : Node} {before after : List Node}

/-- In a tree that `IsSequential` not only neighbours, but all siblings are in order. -/
theorem pairwise_children (h : n.whole.IsSequential) : n.children.Pairwise EndsBefore :=
  (h n n.mem_walk_root).pairwise

/-! ## What a search leaves out -/

/-- In whatever tree, `tokensBefore` a child does not get beyond the child. -/
theorem tokensBefore_of_children (hc : n.children = before ++ stop :: after) :
    n.tokensBefore (some stop) = before.takeWhile (·.start < stop.start) := by
  rw [tokensBefore, hc, List.takeWhile_append, List.takeWhile_cons_of_neg (by simp),
    List.append_nil]
  split
  · next hlength => exact ((List.takeWhile_prefix _).eq_of_length hlength).symm
  · rfl

/-- In a list ordered by `EndsBefore`, what comes behind the first node that does not start ahead of
    `offset` does not either. -/
theorem le_start_of_mem_dropWhile {nodes : List Node} {offset : Nat}
    (hp : nodes.Pairwise EndsBefore) (ht : t ∈ nodes.dropWhile (·.start < offset)) :
    offset ≤ t.start := by
  induction nodes with
  | nil => cases ht
  | cons m nodes ih =>
    obtain ⟨hm, hnodes⟩ := List.pairwise_cons.1 hp
    rw [List.dropWhile_cons] at ht
    split at ht
    · exact ih hnodes ht
    · next hstart =>
      have hstart : offset ≤ m.start := by simpa using hstart
      rcases List.mem_cons.1 ht with rfl | ht
      · exact hstart
      · exact Nat.le_trans hstart (hm t ht).1

/-- The list `tokensBefore` a child has the first of the children ahead of it, and those `missed`
    are empty. -/
theorem exists_missed (h : n.whole.IsSequential) (hc : n.children = before ++ stop :: after) :
    ∃ missed, before = n.tokensBefore (some stop) ++ missed ∧ ∀ t ∈ missed, t.width = 0 := by
  refine ⟨before.dropWhile (·.start < stop.start), ?_, fun t ht => ?_⟩
  · rw [tokensBefore_of_children hc, List.takeWhile_append_dropWhile]
  · have hpair := pairwise_children h
    rw [hc] at hpair
    obtain ⟨hbefore, -, hstop⟩ := List.pairwise_append.1 hpair
    -- a node left out starts no earlier than the child and has ended when the child starts
    have hstart := le_start_of_mem_dropWhile hbefore ht
    have hend := (hstop t ((List.dropWhile_sublist _).subset ht) stop List.mem_cons_self).2
    exact Nat.sub_eq_zero_of_le (Nat.le_trans hend hstart)

/-- In whatever tree, neither the child nor what stands behind it is among `tokensBefore` it. -/
theorem not_mem_tokensBefore (hc : n.children = before ++ stop :: after) (ht : t ∈ stop :: after) :
    t ∉ n.tokensBefore (some stop) := by
  intro hmem
  rw [tokensBefore_of_children hc] at hmem
  have hnodup := n.nodup_children
  rw [hc] at hnodup
  exact (List.nodup_append.1 hnodup).2.2 t ((List.takeWhile_sublist _).subset hmem) t ht rfl

/-! ## What a search detects -/

/-- Whether the child `t` stands before `stop`; all children do if that is `none`. -/
def HasBefore (n : Node) (stop : Option Node) (t : Node) : Prop :=
  match stop with
  | none => t ∈ n.children
  | some stop => ∃ before after, n.children = before ++ stop :: after ∧ t ∈ before

/-- Whether `answer` is the case on account of a token of some kind in some place: it is if one
    stands there that is not empty, and only if one stands there at all. -/
structure Detects (place : Node → Prop) (kinds : Kind → Prop) (answer : Prop) : Prop where
  of_token : ∀ t, place t → kinds t.kind → 0 < t.width → answer
  exists_token : answer → ∃ t, place t ∧ kinds t.kind

variable {place place' : Node → Prop} {kinds : Kind → Prop} {answer answer' : Prop}

theorem Detects.congr (h : Detects place kinds answer) (ha : answer' ↔ answer) :
    Detects place kinds answer' :=
  ⟨fun t ht hk hw => ha.2 (h.of_token t ht hk hw), fun h' => h.exists_token (ha.1 h')⟩

theorem Detects.or (h : Detects place kinds answer) (h' : Detects place' kinds answer') :
    Detects (fun t => place t ∨ place' t) kinds (answer ∨ answer') where
  of_token t ht hk hw :=
    ht.imp (fun ht => h.of_token t ht hk hw) (fun ht => h'.of_token t ht hk hw)
  exists_token hor := by
    rcases hor with ha | ha
    · obtain ⟨t, ht, hk⟩ := h.exists_token ha
      exact ⟨t, .inl ht, hk⟩
    · obtain ⟨t, ht, hk⟩ := h'.exists_token ha
      exact ⟨t, .inr ht, hk⟩

theorem Detects.and (h : Detects place kinds answer) (p : Prop) :
    Detects (fun t => p ∧ place t) kinds (p ∧ answer) where
  of_token t ht hk hw := ⟨ht.1, h.of_token t ht.2 hk hw⟩
  exists_token hand := by
    obtain ⟨t, ht, hk⟩ := h.exists_token hand.2
    exact ⟨t, ⟨hand.1, ht⟩, hk⟩

/-- A token that is before `stop` and not empty is found by `tokensBefore`. -/
theorem mem_tokensBefore_of_hasBefore (h : n.whole.IsSequential) {stop : Option Node}
    (ht : n.HasBefore stop t) (hw : 0 < t.width) : t ∈ n.tokensBefore stop := by
  cases stop with
  | none => exact ht
  | some stop =>
    obtain ⟨before, after, hc, ht⟩ := ht
    obtain ⟨missed, hbefore, hmissed⟩ := exists_missed h hc
    rw [hbefore, List.mem_append] at ht
    exact ht.resolve_right fun ht => Nat.ne_of_gt hw (hmissed t ht)

/-- A token that `tokensBefore` finds stands before `stop`. -/
theorem hasBefore_of_mem_tokensBefore {stop : Option Node}
    (hs : ∀ s, stop = some s → s ∈ n.children) (ht : t ∈ n.tokensBefore stop) :
    n.HasBefore stop t := by
  cases stop with
  | none => exact ht
  | some stop =>
    obtain ⟨before, after, hc⟩ := List.mem_iff_append.1 (hs stop rfl)
    rw [tokensBefore_of_children hc] at ht
    exact ⟨before, after, hc, (List.takeWhile_sublist _).subset ht⟩

/-- The answer whether `tokensBefore` has a token of some kind `Detects` the tokens before
    `stop`. -/
theorem detects_tokensBefore (h : n.whole.IsSequential) {stop : Option Node}
    (hs : ∀ s, stop = some s → s ∈ n.children) (kinds : Kind → Prop) :
    Detects (n.HasBefore stop) kinds (∃ t ∈ n.tokensBefore stop, kinds t.kind) where
  of_token t ht hk hw := ⟨t, mem_tokensBefore_of_hasBefore h ht hw, hk⟩
  exists_token := by
    rintro ⟨t, ht, hk⟩
    exact ⟨t, hasBefore_of_mem_tokensBefore hs ht, hk⟩

/-- A child has one place among the `children`. -/
theorem before_unique {before' after' : List Node} (h : n.children = before ++ m :: after)
    (h' : n.children = before' ++ m :: after') : before = before' := by
  have hnodup := n.nodup_children
  rw [h] at hnodup
  obtain ⟨-, hafter, hbefore⟩ := List.nodup_append.1 hnodup
  exact ((List.append_cons_inj_of_notMem (fun hm => hbefore m hm m List.mem_cons_self rfl)
    (List.nodup_cons.1 hafter).1).1 (h.symm.trans h')).1

/-- A token before `m` is before all that `m` itself is before. -/
theorem HasBefore.trans {stop : Option Node} (ht : n.HasBefore (some m) t)
    (hm : n.HasBefore stop m) : n.HasBefore stop t := by
  obtain ⟨before, after, hc, ht⟩ := ht
  cases stop with
  | none =>
    show t ∈ n.children
    rw [hc]
    exact List.mem_append_left _ ht
  | some stop =>
    obtain ⟨_, rest, hc', hm⟩ := hm
    obtain ⟨first, between, rfl⟩ := List.mem_iff_append.1 hm
    refine ⟨_, rest, hc', List.mem_append_left _ ?_⟩
    -- the child in the middle is met in two splits, and these are the same
    rw [List.append_assoc, List.cons_append] at hc'
    rwa [← before_unique hc hc']

end Node

end ArrowLint
