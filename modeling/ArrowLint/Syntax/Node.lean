/-
  ArrowLint.Syntax.Node

  Nodes in their place. The linter asks a node not only for what is below it but also
  for what is above and beside it, so a node is a tree together with the way up: for
  each step, the label of the node above and the trees on either side.

    * `Node.parent`, `Node.ancestors`, `Node.nextSibling` walk up and sideways;
    * `Node.children`, `Node.field` walk down;
    * `Node.walk` lists a node and all that is below it in pre-order.

  Stepping down and up again leads back (`Node.parent_of_mem_children`), and a walk meets
  every label of the tree once (`Node.walk_map_label`). Asking a node for its source fails
  where its bytes are no text (`Node.text`), and only then is it an error that they are not.
-/

import ArrowLint.Syntax.Tree

namespace ArrowLint

/-- One step up from a tree: the `label` of the node above, and the trees on either side, those
    `before` it with the nearest first. -/
structure Step where
  label : Label
  before : List Tree
  after : List Tree

/-- The tree that the step `s` up from `t` leads to. -/
def Step.rebuild (s : Step) (t : Tree) : Tree :=
  .node s.label (s.before.reverse ++ t :: s.after)

/-- A `tree` in its place: the `path` of steps that leads up from it to the root. -/
structure Node where
  tree : Tree
  path : List Step

/-- What a node lacks that has been asked for it; `NodeError.message` words it. -/
inductive NodeError where
  /-- The bytes of the node are no UTF-8. -/
  | notText (kind : Kind) (start : Nat)
  /-- The function at `start` has no body. -/
  | missingBody (kind : Kind) (start : Nat)
  deriving DecidableEq

/-- The wording of a `NodeError`. -/
def NodeError.message : NodeError → String
  | .notText kind start => kind.spelling ++ " at byte " ++ toString start ++ " is no text"
  | .missingBody kind start => kind.spelling ++ " at byte " ++ toString start ++ " has no body"

namespace Node

/-- The root of a tree, with no step above it. -/
def root (t : Tree) : Node :=
  ⟨t, []⟩

/-! ## What a node is -/

/-- What is said of a node, the label of its `tree`. -/
def label (n : Node) : Label :=
  n.tree.label

/-- The `Kind` of a node. -/
def kind (n : Node) : Kind :=
  n.label.kind

/-- The offset of the first byte of a node. -/
def start (n : Node) : Nat :=
  n.label.start

/-- The offset after the last byte of a node. -/
def stop (n : Node) : Nat :=
  n.label.stop

/-- The number of the line in which a node starts, counted from one. -/
def line (n : Node) : Nat :=
  n.label.row + 1

/-- The source of a node; `notText` where its bytes are none. -/
def text (n : Node) : Except NodeError String :=
  match n.label.text with
  | some s => .ok s
  | none => .error (.notText n.kind n.start)

/-- A node has the source `s` just when its label has that `text`. -/
theorem text_eq_ok_iff {n : Node} {s : String} : n.text = .ok s ↔ n.label.text = some s := by
  unfold text
  split <;> simp_all

/-! ## Up and sideways -/

/-- The node directly above, `none` for a root. -/
def parent (n : Node) : Option Node :=
  match n.path with
  | [] => none
  | s :: above => some ⟨s.rebuild n.tree, above⟩

/-- The nodes that a way up from `t` passes, the nearest first. -/
def climb : Tree → List Step → List Node
  | _, [] => []
  | t, s :: above => ⟨s.rebuild t, above⟩ :: climb (s.rebuild t) above

/-- The nodes above a node, the nearest first, as `climb` passes them. -/
def ancestors (n : Node) : List Node :=
  climb n.tree n.path

/-- The node that follows directly under the same `parent`. -/
def nextSibling (n : Node) : Option Node :=
  match n.path with
  | [] => none
  | s :: above =>
    match s.after with
    | [] => none
    | t :: after => some ⟨t, ⟨s.label, n.tree :: s.before, after⟩ :: above⟩

/-- Whether the parent of `n`, asked for the field `f`, answers with `n`: of several children under
    one field the first counts. -/
def isParentField (n : Node) (f : Field) : Bool :=
  match n.path with
  | [] => false
  | s :: _ => n.tree.fills f && s.before.all (!·.fills f)

/-! ## Down -/

/-- Neighbouring trees as nodes under one `label`, with those already passed in `before`. -/
def spread (label : Label) (above : List Step) (before : List Tree) : List Tree → List Node
  | [] => []
  | t :: after => ⟨t, ⟨label, before, after⟩ :: above⟩ :: spread label above (t :: before) after

/-- The nodes directly below, in order. -/
def children (n : Node) : List Node :=
  spread n.label n.path [] n.tree.children

theorem spread_map_tree (label : Label) (above : List Step) (before after : List Tree) :
    (spread label above before after).map (·.tree) = after := by
  induction after generalizing before with
  | nil => rfl
  | cons t after ih => simp [spread, ih]

/-- The trees of `n.children` are those below `n.tree`, in order. -/
theorem children_map_tree (n : Node) : n.children.map (·.tree) = n.tree.children :=
  spread_map_tree ..

theorem parent_of_mem_spread {label : Label} {above : List Step} {before after : List Tree}
    {m : Node} (h : m ∈ spread label above before after) :
    m.parent = some ⟨.node label (before.reverse ++ after), above⟩ := by
  induction after generalizing before with
  | nil => simp [spread] at h
  | cons t after ih =>
    rcases List.mem_cons.1 h with rfl | h
    · rfl
    · -- the tree just passed is the nearest of those before
      simpa using ih h

/-- The `parent` of a node among `n.children` is `n`. -/
theorem parent_of_mem_children {n m : Node} (h : m ∈ n.children) : m.parent = some n := by
  obtain ⟨⟨label, trees⟩, above⟩ := n
  exact parent_of_mem_spread h

/-- The `children` that have a name of their own. -/
def namedChildren (n : Node) : List Node :=
  n.children.filter (·.label.isNamed)

/-- The first of the `children` that fills the field `f`. -/
def field (n : Node) (f : Field) : Option Node :=
  n.children.find? (·.tree.fills f)

mutual

/-- A tree in its place and all that is below it, in pre-order. -/
def visit (above : List Step) : Tree → List Node
  | .node label children => ⟨.node label children, above⟩ :: visitForest label above [] children

/-- Neighbouring trees under one `label` and all that is below them, in pre-order; those passed are
    in `before`. -/
def visitForest (label : Label) (above : List Step) (before : List Tree) :
    List Tree → List Node
  | [] => []
  | t :: after =>
    visit (⟨label, before, after⟩ :: above) t ++ visitForest label above (t :: before) after

end

/-- A node and all that is below it, each before its `children` and all in source order. -/
def walk (n : Node) : List Node :=
  visit n.path n.tree

mutual

theorem visit_map_label (above : List Step) (t : Tree) :
    (visit above t).map (·.label) = t.labels := by
  match t with
  | .node label children =>
    rw [visit, List.map_cons, visitForest_map_label label above [] children]
    rfl

theorem visitForest_map_label (label : Label) (above : List Step) (before : List Tree)
    (trees : List Tree) :
    (visitForest label above before trees).map (·.label) = Tree.forestLabels trees := by
  match trees with
  | [] => rfl
  | t :: after =>
    rw [visitForest, List.map_append, visit_map_label _ t,
      visitForest_map_label label above (t :: before) after]
    rfl

end

/-- The labels met by `walk` are those of the tree, each once and in pre-order. -/
theorem walk_map_label (n : Node) : n.walk.map (·.label) = n.tree.labels :=
  visit_map_label n.path n.tree

/-! ## Questions the linter asks -/

/-- The source of a node that may be missing; `none` has the empty one. -/
def textOf (n : Option Node) : Except NodeError String :=
  match n with
  | some n => n.text
  | none => .ok ""

/-- The source of what `n` holds under the field `f`, empty if there is none. -/
def fieldText (n : Node) (f : Field) : Except NodeError String :=
  textOf (n.field f)

/-- The `namedChildren` without comments. -/
def statements (n : Node) : List Node :=
  n.namedChildren.filter (!·.kind.isComment)

/-- The `children` that start ahead of `stop`, up to the first that does not; all of them if `stop`
    is `none`. -/
def tokensBefore (n : Node) (stop : Option Node) : List Node :=
  match stop with
  | none => n.children
  | some stop => n.children.takeWhile (·.start < stop.start)

/-- Whether the `parent` of a node is the body of a class. -/
def isClassMember (n : Node) : Bool :=
  match n.parent with
  | some parent => parent.kind == .classBody
  | none => false

/-- Whether a node is a semicolon that stands in the source. A parser puts one of width zero where
    it takes the statement to end without. -/
def isWrittenSemicolon (n : Node) : Bool :=
  n.kind == .semicolon && n.start < n.stop

end Node

end ArrowLint
