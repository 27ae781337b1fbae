/-
  ArrowLint.Syntax.Tree

  Concrete syntax trees. A tree is a label and the trees below it, in source order,
  keywords and punctuation included. The label holds what a parser says of one node:
  its kind, the bytes it spans and their text, where it starts, and under which fields
  the node above holds it. A parser may draw the bounds of a node inside a character, and
  the bytes of such a node are no text.
-/

import ArrowLint.Syntax.Kind

namespace ArrowLint

/-- What a `Tree` says of one of its nodes. -/
structure Label where
  kind : Kind
  /-- Whether the grammar gives the node a name of its own; keywords and punctuation have none. -/
  isNamed : Bool
  /-- The offset of the first byte. -/
  start : Nat
  /-- The offset after the last byte. -/
  stop : Nat
  /-- The number of lines that end before the node. -/
  row : Nat
  /-- The number of bytes ahead of the node in its line. -/
  column : Nat
  /-- The source of the node, `none` if its bytes are no UTF-8. -/
  text : Option String
  /-- The fields under which the node above holds this one (`Tree.fills`). -/
  fields : List Field

/-- A node with all that is below it. -/
inductive Tree where
  | node (label : Label) (children : List Tree)

namespace Tree

/-- The `Label` of the topmost node. -/
def label : Tree → Label
  | .node label _ => label

/-- The trees directly below the topmost node. -/
def children : Tree → List Tree
  | .node _ children => children

/-- Whether the node above holds `t` under the field `f`. -/
def fills (t : Tree) (f : Field) : Bool :=
  t.label.fields.contains f

mutual

/-- The labels of a tree in pre-order: a node comes before those below it. -/
def labels : Tree → List Label
  | .node label children => label :: forestLabels children

/-- The labels of neighbouring trees in pre-order, those of each as `labels` lists them. -/
def forestLabels : List Tree → List Label
  | [] => []
  | t :: ts => labels t ++ forestLabels ts

end

end Tree

end ArrowLint
