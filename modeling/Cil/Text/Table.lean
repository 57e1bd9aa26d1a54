/-
A table of two columns with a title row.

The first column is set to the right and the second to the left.  A cell has one space on either
side and may hold several lines; a row is as tall as its tallest cell.  One rule stands under the
title and one under the last row.
-/
import Cil.Text.Columns
import Cil.Text.Lines

namespace Cil.Text

/-- A line of a cell with the columns it takes. -/
structure CellLine where
  text : String
  columns : Nat

def CellLine.empty : CellLine := ⟨"", 0⟩

/-- Measures a line.  There is none if the line has no width. -/
def CellLine.ofText? (text : String) : Option CellLine :=
  (columns? text).map (CellLine.mk text)

/-- The lines of a cell. -/
abbrev Cell := List CellLine

def Cell.ofText? (text : String) : Option Cell :=
  (lines text).mapM CellLine.ofText?

/-- The columns of a cell's longest line. -/
def Cell.columns (c : Cell) : Nat :=
  (c.map CellLine.columns).foldl max 0

/-- The line of a cell at the given height, empty past its end. -/
def Cell.lineAt (c : Cell) (i : Nat) : CellLine :=
  c.getD i .empty

/-- A row of two cells. -/
structure Row where
  left : Cell
  right : Cell

namespace Row

def ofTexts? (left right : String) : Option Row := do
  return ⟨← Cell.ofText? left, ← Cell.ofText? right⟩

def spaces (n : Nat) : String :=
  String.ofList (List.replicate n ' ')

/-- A row has at least one line. -/
def height (r : Row) : Nat :=
  max 1 (max r.left.length r.right.length)

/-- The row's line at height `i`, for columns of the given widths. -/
def renderLine (r : Row) (leftWidth rightWidth i : Nat) : String :=
  let l := Cell.lineAt r.left i
  let s := Cell.lineAt r.right i
  "  " ++ spaces (leftWidth - l.columns) ++ l.text ++ " │ " ++ s.text ++
    spaces (rightWidth - s.columns) ++ "  \n"

def render (r : Row) (leftWidth rightWidth : Nat) : String :=
  String.join ((List.range r.height).map (r.renderLine leftWidth rightWidth))

end Row

/-- A rule across both columns. -/
def ruleLine (crossing : String) (leftWidth rightWidth : Nat) : String :=
  let dashes (n : Nat) := String.ofList (List.replicate (n + 2) '─')
  " " ++ dashes leftWidth ++ crossing ++ dashes rightWidth ++ " \n"

/-- A table with the given title. -/
def renderTable (title : Row) (rows : List Row) : String :=
  let leftWidth := ((title :: rows).map fun r => Cell.columns r.left).foldl max 0
  let rightWidth := ((title :: rows).map fun r => Cell.columns r.right).foldl max 0
  title.render leftWidth rightWidth ++ ruleLine "┼" leftWidth rightWidth ++
    String.join (rows.map fun r => r.render leftWidth rightWidth) ++
    ruleLine "┴" leftWidth rightWidth

end Cil.Text
