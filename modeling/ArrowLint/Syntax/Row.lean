/-
  ArrowLint.Syntax.Row

  Trees as tables. A tree written down in pre-order takes one row a node: the number of
  the row above it in the tree, and what the parser says of the node. `Tree.ofRows?`
  reads the table against the source, from the last row to the first: what is below a
  node has then been built just before the node's own row is met.
-/

import ArrowLint.Syntax.Tree
import ArrowLint.Text.Bytes

namespace ArrowLint

/-- One node of a tree that is written down as a table, by the number of the row `parent` above
    it. -/
structure Row where
  /-- The row of the node above, `none` for the root. -/
  parent : Option Nat
  kind : Kind
  isNamed : Bool
  start : Nat
  stop : Nat
  fields : List Field

/-- The `Label` of the node of a row, with its position and text in `source`. -/
def Row.label (source : Bytes) (r : Row) : Label :=
  { kind := r.kind, isNamed := r.isNamed, start := r.start, stop := r.stop
    row := source.rowAt r.start, column := source.columnAt r.start
    text := Bytes.text? (source.slice r.start r.stop), fields := r.fields }

namespace Tree

/-- Trees that are built and wait for the row of the node above them. -/
abbrev Pending := List (Option Nat × Tree)

/-- Reads one row: the trees at the front of `pending` that wait for its number become its
    children. -/
def readRow (source : Bytes) (entry : Row × Nat) (pending : Pending) : Pending :=
  let (row, index) := entry
  let isBelow := fun (waiting : Option Nat × Tree) => waiting.1 == some index
  (row.parent, .node (row.label source) ((pending.takeWhile isBelow).map (·.2)))
    :: pending.dropWhile isBelow

/-- The tree that a table of rows describes, if the `rows` are those of one tree in pre-order. -/
def ofRows? (source : Bytes) (rows : List Row) : Option Tree :=
  match rows.zipIdx.foldr (readRow source) [] with
  | [(none, t)] => some t
  | _ => none

end Tree

end ArrowLint
