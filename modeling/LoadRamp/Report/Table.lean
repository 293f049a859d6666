import LoadRamp.Text.Width

/-!
# Tables of text

A table is drawn with box characters.  Every column is as wide as its widest
line, cells are aligned to the left with one blank on either side, and a rule
separates every two rows.  A cell may have several lines.
-/

namespace LoadRamp
namespace Report
namespace Table

/-- The lines of a cell. -/
def cellLines (cell : String) : List String :=
  (cell.toList.splitOn '\n').map String.ofList

/-- The width of the widest line of a cell. -/
def cellWidth (cell : String) : Nat :=
  (cellLines cell).foldl (fun most line => max most (Text.width line)) 0

/-- The width of every column of a table with `columns` columns. -/
def columnWidths (columns : Nat) (rows : List (List String)) : List Nat :=
  rows.foldl (fun widths row => List.zipWith (fun w cell => max w (cellWidth cell)) widths row)
    (List.replicate columns 0)

/-- A rule across the table. -/
def rule (left cross right : String) (widths : List Nat) : String :=
  left ++ cross.intercalate (widths.map fun w => String.ofList (List.replicate (w + 2) '─')) ++
    right

/-- A line of a cell, filled up to the width of its column. -/
def padded (width : Nat) (line : String) : String :=
  " " ++ line ++ String.ofList (List.replicate (width - Text.width line) ' ') ++ " "

/-- The lines of a row. -/
def rowLines (widths : List Nat) (row : List String) : List String :=
  let cells := row.map cellLines
  let height := cells.foldl (fun most lines => max most lines.length) 1
  (List.range height).map fun i =>
    "│" ++ "│".intercalate (List.zipWith (fun w lines => padded w (lines.getD i "")) widths cells) ++
      "│"

/-- A table without a line end after its last line. -/
def draw (header : List String) (rows : List (List String)) : String :=
  let widths := columnWidths header.length (header :: rows)
  let between := rule "├" "┼" "┤" widths
  let body := (header :: rows).map (rowLines widths)
  let lines := (body.intersperse [between]).flatten
  "\n".intercalate (rule "┌" "┬" "┐" widths :: lines ++ [rule "└" "┴" "┘" widths])

end Table
end Report
end LoadRamp
