import DownloadQuery.Text.Split
import DownloadQuery.Text.Width

/-!
# Tables

Texts in columns between lines. A column is as wide as its widest line, but at least one, and a blank
stands at either side of it. A text with several lines takes as many lines of the table.
-/

namespace DownloadQuery

/-- A heading and rows, with a text for each column. -/
structure Table where
  header : List String
  rows : List (List String)
  deriving DecidableEq, Repr

namespace Table

/-- The lines of a cell. -/
def cellLines (cell : String) : List String :=
  (Text.splitAt '\n' cell.toList).map String.ofList

/-- The width that a cell needs. -/
def cellWidth (cell : String) : Nat := ((cellLines cell).map Text.width).foldl max 1

/-- The widths of columns wide enough for a row. -/
def widen (widths : List Nat) (row : List String) : List Nat :=
  List.zipWith max widths (row.map cellWidth)

/-- The widths of all columns. -/
def widths (t : Table) : List Nat := t.rows.foldl widen (t.header.map cellWidth)

def repeated (n : Nat) (c : Char) : String := String.ofList (List.replicate n c)

/-- A line of a table between its rows: its ends, what it is made of, and its crossings. -/
def ruler (widths : List Nat) (left fill crossing right : Char) : String :=
  left.toString ++ crossing.toString.intercalate (widths.map fun w => repeated (w + 2) fill) ++
    right.toString

/-- A line of a cell in its column. -/
def padded (width : Nat) (line : String) : String :=
  " " ++ line ++ repeated (width - Text.width line) ' ' ++ " "

/-- One line of a row: that of each cell, or blanks. -/
def rowLine (widths : List Nat) (cells : List (List String)) (index : Nat) : String :=
  "│" ++ "┆".intercalate
    (List.zipWith (fun w lines => padded w (lines.getD index "")) widths cells) ++ "│"

/-- The lines of a row. -/
def rowLines (widths : List Nat) (row : List String) : List String :=
  let cells := row.map cellLines
  let height := (cells.map List.length).foldl max 0
  (List.range height).map (rowLine widths cells)

/-- The text of a table, without a line feed at its end. -/
def render (t : Table) : String :=
  let widths := t.widths
  "\n".intercalate
    ([ruler widths '┌' '─' '┬' '┐'] ++ rowLines widths t.header ++
      [ruler widths '╞' '═' '╪' '╡'] ++ t.rows.flatMap (rowLines widths) ++
      [ruler widths '└' '─' '┴' '┘'])

end Table
end DownloadQuery
