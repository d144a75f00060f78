import TagIndex.Text.Width

/-!
Tables as text. With tabs a table is its rows alone; with bars it has a header, and every cell is
filled up with spaces to the width of its column.
-/
namespace TagIndex

structure Table where
  header : List String
  rows : List (List String)
  deriving DecidableEq, Repr

namespace Table

/-- The rows, their cells separated by tabs. -/
def tabbed (t : Table) : String :=
  String.join (t.rows.map fun row => Text.joined "\t" row ++ "\n")

/-- The width of every column, with the header in mind. -/
def widths (t : Table) : List Nat :=
  t.rows.foldl (fun ws row => ws.zipWith max (row.map Text.width)) (t.header.map Text.width)

def filled (width : Nat) (line : List Char) : String :=
  String.ofList (line ++ List.replicate (width - Text.lineWidth line) ' ')

/-- One line of a row that has a line for every cell. -/
def barLine (widths : List Nat) (cells : List (List Char)) : String :=
  "| " ++ Text.joined " | " (List.zipWith filled widths cells) ++ " |\n"

/-- A row; a cell of several lines makes it that high. -/
def barRow (widths : List Nat) (row : List String) : String :=
  let cells := row.map fun cell => Text.lines cell.toList
  let height := (cells.map (·.length)).foldl max 0
  String.join ((List.range height).map fun i =>
    barLine widths (cells.map fun ls => (ls[i]?).getD []))

def dashes (widths : List Nat) : String :=
  "|" ++ Text.joined "|" (widths.map fun w => String.ofList (List.replicate (w + 2) '-')) ++ "|\n"

/-- The header, a line of dashes, and the rows. -/
def barred (t : Table) : String :=
  barRow t.widths t.header ++ dashes t.widths ++ String.join (t.rows.map (barRow t.widths))

end Table
end TagIndex
