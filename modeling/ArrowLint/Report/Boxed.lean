/-
  ArrowLint.Report.Boxed

  Tables in boxes. A column is as wide as the widest of its header and its cells on a
  terminal, a blank stands on either side of every cell, and the title is centred over
  the box. Characters that a terminal would act upon are left out of the cells.
-/

import ArrowLint.Text.Console

namespace ArrowLint

/-- A column: the `header` over it, and whether its cells are aligned on the right. -/
structure Column where
  header : String
  alignsRight : Bool := false

/-- A table with a `title`. Every row has a cell for each of the `columns`. -/
structure Boxed where
  title : String
  columns : List Column
  rows : List (List String)

namespace Boxed

/-- The `rows` as they are shown, without control characters. -/
def shownRows (b : Boxed) : List (List String) :=
  b.rows.map (·.map Text.withoutControls)

/-- The cells of `shownRows` in the column at `index`, empty where a row is too short. -/
def cells (b : Boxed) (index : Nat) : List String :=
  b.shownRows.map fun row => (row[index]?).getD ""

/-- The width of a column: the largest among its header and its `cells`. -/
def width (b : Boxed) (index : Nat) (column : Column) : Nat :=
  ((b.cells index).map Text.width).foldl max (Text.width column.header)

/-- The `columns`, each with its `width`. -/
def sized (b : Boxed) : List (Column × Nat) :=
  b.columns.zipIdx.map fun (column, index) => (column, b.width index column)

/-- The text `s` brought to `width` by blanks, ahead of it if `alignsRight`, else behind it. -/
def pad (alignsRight : Bool) (width : Nat) (s : String) : String :=
  let space := Text.blanks (width - Text.width s)
  if alignsRight then space ++ s else s ++ space

/-- The text `s` brought to `width` by blanks on both sides, the odd one on the right. -/
def centre (width : Nat) (s : String) : String :=
  let spare := width - Text.width s
  Text.blanks (spare / 2) ++ s ++ Text.blanks (spare - spare / 2)

/-- A line across the box: `stroke` over and over between `left` and `right`, and `cross` between
    two columns. -/
def rule (left cross right : String) (stroke : Char) (sizes : List (Column × Nat)) : String :=
  -- two more than the width, for the blanks on either side of a cell
  left ++ cross.intercalate (sizes.map fun (_, width) =>
    String.ofList (List.replicate (width + 2) stroke)) ++ right

/-- A line of `cells` between bars, each with a blank on either side of its `pad`. -/
def line (bar : String) (sizes : List (Column × Nat)) (cells : List String) : String :=
  bar ++ bar.intercalate ((sizes.zip cells).map fun ((column, width), cell) =>
    " " ++ pad column.alignsRight width cell ++ " ") ++ bar

/-- The width of the box, its outer bars included. -/
def fullWidth (sizes : List (Column × Nat)) : Nat :=
  (sizes.map (·.2 + 3)).foldl (· + ·) 1

/-- The lines of a table: its title, the headers between two rules, `shownRows`, and the rule below
    them. -/
def lines (b : Boxed) : List String :=
  let sizes := b.sized
  [centre (fullWidth sizes) b.title, rule "┏" "┳" "┓" '━' sizes,
    line "┃" sizes (b.columns.map (·.header)), rule "┡" "╇" "┩" '━' sizes]
    ++ b.shownRows.map (line "│" sizes)
    ++ [rule "└" "┴" "┘" '─' sizes]

/-- A table as text: its `lines`, every one ended. -/
def render (b : Boxed) : String :=
  String.join (b.lines.map (· ++ "\n"))

end Boxed

end ArrowLint
