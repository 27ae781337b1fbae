/-
  ArrowLint.Proofs.Syntax.Parsed

  What is asked of trees. The linter takes its trees from a parser that is not its own, and
  leans on three things, each of them a property of the whole tree:

    * `Tree.IsLegible`: the bytes of every node are a text, so reading a node never fails;
    * `Tree.IsOrderly`: children lie within their parent, one behind the other;
    * `Tree.IsParseOf`: the tree is orderly, its ranges lie in a source and are drawn at the
      boundaries of characters, and its texts are what stands there.

  `Parser.IsFaithful` says of a parser that all its trees are parses of their sources.
-/

import ArrowLint.Grammar
import ArrowLint.Proofs.Syntax.Place
import ArrowLint.Proofs.Text.Boundary

namespace ArrowLint

namespace Tree

/-- Whether the bytes of every node are a text. -/
def IsLegible (t : Tree) : Prop :=
  ∀ l ∈ t.labels, ∃ s, l.text = some s

/-- Whether the range of every child lies in that of its parent, and neighbours come one behind the
    other. -/
structure IsOrderly (t : Tree) : Prop where
  nested : ∀ n ∈ (Node.root t).walk, ∀ c ∈ n.children, n.start ≤ c.start ∧ c.stop ≤ n.stop
  ordered : ∀ n ∈ (Node.root t).walk, n.children.Pairwise fun a b => a.stop ≤ b.start

/-- Whether `t` is orderly, lies in `source` and shows what stands there. -/
structure IsParseOf (t : Tree) (source : String) : Prop extends t.IsOrderly where
  start_le_stop : ∀ n ∈ (Node.root t).walk, n.start ≤ n.stop
  start_isBoundary : ∀ n ∈ (Node.root t).walk, Bytes.IsBoundary source n.start
  stop_isBoundary : ∀ n ∈ (Node.root t).walk, Bytes.IsBoundary source n.stop
  text : ∀ n ∈ (Node.root t).walk,
    n.label.text = Bytes.text? ((Bytes.ofText source).slice n.start n.stop)

theorem isParseOf_iff {t : Tree} {source : String} : t.IsParseOf source ↔
    ∀ n ∈ (Node.root t).walk,
      (∀ c ∈ n.children, n.start ≤ c.start ∧ c.stop ≤ n.stop) ∧
      n.children.Pairwise (fun a b => a.stop ≤ b.start) ∧
      n.start ≤ n.stop ∧ Bytes.IsBoundary source n.start ∧ Bytes.IsBoundary source n.stop ∧
      n.label.text = Bytes.text? ((Bytes.ofText source).slice n.start n.stop) := by
  refine ⟨fun h n hn => ?_, fun h => ?_⟩
  · exact ⟨h.nested n hn, h.ordered n hn, h.start_le_stop n hn, h.start_isBoundary n hn,
      h.stop_isBoundary n hn, h.text n hn⟩
  · exact {
      nested := fun n hn => (h n hn).1
      ordered := fun n hn => (h n hn).2.1
      start_le_stop := fun n hn => (h n hn).2.2.1
      start_isBoundary := fun n hn => (h n hn).2.2.2.1
      stop_isBoundary := fun n hn => (h n hn).2.2.2.2.1
      text := fun n hn => (h n hn).2.2.2.2.2 }

instance (t : Tree) (source : String) : Decidable (t.IsParseOf source) :=
  decidable_of_iff _ isParseOf_iff.symm

end Tree

/-- Whether every tree of `parser` is a parse of its source. -/
def Parser.IsFaithful (parser : Parser) : Prop :=
  ∀ grammar source, (parser grammar source).tree.IsParseOf source

/-! ## Reading nodes -/

/-- Drawn at boundaries, every node of a parse is a text, so the tree `IsLegible`. -/
theorem Tree.IsParseOf.isLegible {t : Tree} {source : String} (h : t.IsParseOf source) :
    t.IsLegible := by
  intro l hl
  -- every label is that of a node which the walk meets
  have hw : (Node.root t).walk.map (·.label) = t.labels := (Node.root t).walk_map_label
  rw [← hw] at hl
  obtain ⟨n, hn, rfl⟩ := List.mem_map.1 hl
  obtain ⟨s, hs⟩ := Bytes.exists_ofText_eq_slice (h.start_isBoundary n hn) (h.stop_isBoundary n hn)
    (h.start_le_stop n hn)
  exact ⟨s, by rw [h.text n hn, Bytes.text?_eq_some_iff, hs]⟩

namespace Node

theorem exists_text {n : Node} (h : n.whole.IsLegible) : ∃ s, n.text = .ok s := by
  obtain ⟨s, hs⟩ := h n.label n.label_mem_whole
  exact ⟨s, text_eq_ok_iff.2 hs⟩

theorem exists_fieldText {n : Node} (h : n.whole.IsLegible) (f : Field) :
    ∃ s, n.fieldText f = .ok s := by
  unfold fieldText textOf
  cases hf : n.field f with
  | none => exact ⟨"", rfl⟩
  | some m => exact exists_text (by rwa [whole_of_field hf])

/-! ## Ranges of nodes -/

variable {n : Node} {source : String}

theorem start_le_stop (h : n.whole.IsParseOf source) : n.start ≤ n.stop :=
  h.start_le_stop n n.mem_walk_root

/-- The `nextSibling` starts where a node has ended, or behind that. -/
theorem stop_le_start_nextSibling {m : Node} (h : n.whole.IsOrderly)
    (hm : n.nextSibling = some m) : n.stop ≤ m.start := by
  obtain ⟨p, before, after, hp, hc⟩ := children_of_nextSibling hm
  have hpair := h.ordered p (by rw [← whole_of_parent hp]; exact p.mem_walk_root)
  -- the two are neighbours among the children, and those come in order
  rw [hc] at hpair
  exact List.rel_of_pairwise_cons (List.pairwise_append.1 hpair).2.1 List.mem_cons_self

end Node

/-! ## Trees in one line -/

/-- The `Label` of a node in the first line of a source. -/
def Label.ofText (kind : Kind) (isNamed : Bool) (start : Nat) (text : String)
    (fields : List Field) : Label :=
  { kind := kind, isNamed := isNamed, start := start, stop := start + (Bytes.ofText text).length
    row := 0, column := start, text := some text, fields := fields }

namespace Tree

/-- The tree of `source` with the given `statements`. -/
def program (source : String) (statements : List Tree) : Tree :=
  .node (.ofText (.other "program") true 0 source []) statements

/-- The tree of `source` in which nothing is told apart. -/
def undivided (source : String) : Tree :=
  program source []

theorem isParseOf_undivided (source : String) : (undivided source).IsParseOf source := by
  rw [isParseOf_iff]
  intro n hn
  -- a walk meets the root and nothing else
  have hwalk : (Node.root (undivided source)).walk = [Node.root (undivided source)] := rfl
  have hchildren : (Node.root (undivided source)).children = [] := rfl
  have hstart : (Node.root (undivided source)).start = 0 := rfl
  have hstop : (Node.root (undivided source)).stop = (Bytes.ofText source).length := Nat.zero_add _
  have htext : (Node.root (undivided source)).label.text = some source := rfl
  rw [hwalk, List.mem_singleton] at hn
  rw [hn, hchildren, hstart, hstop, htext]
  refine ⟨by simp, by simp, Nat.zero_le _, Bytes.isBoundary_zero source,
    Bytes.isBoundary_length source, ?_⟩
  rw [Bytes.slice, List.drop_zero, Nat.sub_zero, List.take_length, Bytes.text?_ofText]

/-- The function in `function f() {}`. -/
def emptyFunction : Tree :=
  .node (.ofText .functionDeclaration true 0 "function f() \x7b\x7d" []) [
    .node (.ofText (.other "function") false 0 "function" []) [],
    .node (.ofText .identifier true 9 "f" [.name]) [],
    .node (.ofText (.other "formal_parameters") true 10 "()" [.parameters]) [
      .node (.ofText (.other "(") false 10 "(" []) [],
      .node (.ofText (.other ")") false 11 ")" []) []],
    .node (.ofText .statementBlock true 13 "\x7b\x7d" [.body]) [
      .node (.ofText (.other "\x7b") false 13 "\x7b" []) [],
      .node (.ofText (.other "\x7d") false 14 "\x7d" []) []]]

/-- The tree of `function f() {}`. -/
def emptyFunctionProgram : Tree :=
  program "function f() \x7b\x7d" [emptyFunction]

theorem isParseOf_emptyFunctionProgram :
    emptyFunctionProgram.IsParseOf "function f() \x7b\x7d" := by decide

end Tree

/-- A parser that gives the tree `t` for the source `known`. -/
def Parser.ofTree (known : String) (t : Tree) : Parser := fun _ source =>
  if source = known then ⟨t, false⟩ else ⟨.undivided source, false⟩

theorem Parser.isFaithful_ofTree {known : String} {t : Tree} (h : t.IsParseOf known) :
    (ofTree known t).IsFaithful := by
  intro grammar source
  unfold ofTree
  split
  · next hs =>
    rw [hs]
    exact h
  · exact Tree.isParseOf_undivided source

/-- A parser that knows the source of `emptyFunctionProgram`. -/
def Parser.emptyFunction : Parser := fun _ source =>
  if source = "function f() \x7b\x7d" then ⟨.emptyFunctionProgram, false⟩
  else ⟨.undivided source, false⟩

theorem Parser.isFaithful_emptyFunction : Parser.emptyFunction.IsFaithful :=
  isFaithful_ofTree Tree.isParseOf_emptyFunctionProgram

/-- The function in the tree of `function f() {}`. -/
def Node.emptyFunction : Node :=
  ⟨.emptyFunction, [⟨Tree.emptyFunctionProgram.label, [], []⟩]⟩

end ArrowLint
