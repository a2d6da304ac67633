import UserFederation.Text.Width

/-! Tables with lines around them. The first row is the heading; a cell with several lines makes its
row higher. -/

namespace UserFederation.Grid

/-- The lines of a cell. -/
def lines (cell : String) : List String := cell.splitOn "\n"

/-- The columns that a cell takes. -/
def cellWidth (cell : String) : Nat := (lines cell).foldl (fun w line => max w (Text.width line)) 0

/-- The width of each column of some rows of the same length. -/
def columnWidths : List (List String) → List Nat
  | [] => []
  | [row] => row.map cellWidth
  | row :: rows => List.zipWith max (row.map cellWidth) (columnWidths rows)

/-- A line filled up with blanks. -/
def pad (width : Nat) (line : String) : String :=
  line ++ String.ofList (List.replicate (width - Text.width line) ' ')

/-- A rule between rows. -/
def rule (left middle right : String) (widths : List Nat) : String :=
  let parts := widths.map fun w => String.ofList (List.replicate (w + 2) '─')
  left ++ middle.intercalate parts ++ right

/-- The lines of a row. -/
def rowLines (widths : List Nat) (row : List String) : List String :=
  let cells := row.map lines
  let height := cells.foldl (fun h cell => max h cell.length) 0
  (List.range height).map fun i =>
    let parts := List.zipWith (fun w cell => pad w (cell.getD i "")) widths cells
    "│ " ++ " │ ".intercalate parts ++ " │"

/-- The text of a table. -/
def text (heading : List String) (rows : List (List String)) : String :=
  let widths := columnWidths (heading :: rows)
  "\n".intercalate ([rule "╭" "┬" "╮" widths] ++ rowLines widths heading ++
    [rule "├" "┼" "┤" widths] ++ rows.flatMap (rowLines widths) ++ [rule "╰" "┴" "╯" widths])

end UserFederation.Grid
