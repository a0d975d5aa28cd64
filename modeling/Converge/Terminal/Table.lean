import Converge.Text.Split
import Converge.Text.Width
/-!
# Tables of text

A table is drawn with dashes, bars and plus signs, a line between any two rows.  A cell may have
several lines; every column is as wide as its widest line.
-/

namespace Converge.Terminal

/-- A cell as its lines. -/
abbrev Cell := List (List Char)

/-- The lines of a text. -/
def cellOf (text : String) : Cell :=
  Text.splitAll '\n' text.toList

/-- The width of a cell's widest line. -/
def cellWidth (cell : Cell) : Nat :=
  (cell.map Text.width).foldl max 0

/-- The widths of columns, as wide as the widest cell of any row. -/
def columnWidths : List (List Cell) → List Nat
  | [] => []
  | [row] => row.map cellWidth
  | row :: rest => List.zipWith max (row.map cellWidth) (columnWidths rest)

/-- The line between rows. -/
def ruler (widths : List Nat) : List Char :=
  '+' :: widths.flatMap (fun width => List.replicate (width + 2) '-' ++ ['+'])

/-- A line of a cell between blanks, filled up to the width of its column. -/
def padded (width : Nat) (line : List Char) : List Char :=
  ' ' :: line ++ List.replicate (width - Text.width line) ' ' ++ [' ']

/-- The line of a row with a number; a cell that has ended is blank. -/
def rowLine (widths : List Nat) (row : List Cell) (number : Nat) : List Char :=
  '|' :: (List.zipWith (fun width cell => padded width (cell.getD number [])) widths row).flatMap
    (· ++ ['|'])

/-- The lines of a row. -/
def rowLines (widths : List Nat) (row : List Cell) : List (List Char) :=
  let height := (row.map List.length).foldl max 1
  (List.range height).map (rowLine widths row)

/-- Draws rows of cells; the first row holds the titles of the columns. -/
def table (rows : List (List String)) : String :=
  let cells := rows.map (·.map cellOf)
  let widths := columnWidths cells
  let lines := cells.flatMap fun row => ruler widths :: rowLines widths row
  String.ofList (['\n'].intercalate (lines ++ [ruler widths]))

end Converge.Terminal
