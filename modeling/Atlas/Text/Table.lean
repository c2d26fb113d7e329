import Atlas.Text.Width

/-!
# Tables as text

A table has named columns and rows of cells. It is drawn with a frame around it and a line below
the names; between two columns there is one blank. A column is as wide as its widest line, but never
without width, with a blank on both sides. A cell with several lines makes its row as high as it
needs.
-/

namespace Atlas.Text

/-- The place of a text in its cell. -/
inductive Align where
  | left
  | center
  deriving DecidableEq, Repr

/-- Named columns and rows of cells. -/
structure Table where
  columns : List (String × Align)
  rows : List (List String)

namespace Table

/-- The lines of a cell. -/
def cellLines (cell : String) : List String := (cell.toList.splitOn '\n').map String.ofList

/-- The width of the widest line of a cell. -/
def cellWidth (cell : String) : Nat :=
  (cellLines cell).foldl (fun w line => Nat.max w (width line)) 0

/-- The greater of the numbers at each place. -/
def maxEach : List Nat → List Nat → List Nat
  | x :: xs, y :: ys => Nat.max x y :: maxEach xs ys
  | xs, [] => xs
  | [], ys => ys

/-- The widths of the columns without the blanks on both sides. -/
def widths (t : Table) : List Nat :=
  t.rows.foldl (fun ws row => maxEach ws (row.map cellWidth))
    (t.columns.map (fun column => Nat.max 1 (cellWidth column.1)))

/-- Some blanks. -/
def blanks (n : Nat) : String := String.ofList (List.replicate n ' ')

/-- A line at its place in a cell of some width, with a blank on both sides. Of an odd number of
further blanks around a centered line the greater half is in front. -/
def placeLine (align : Align) (w : Nat) (line : String) : String :=
  let free := w - width line
  let front := match align with
    | .left => 0
    | .center => free - free / 2
  blanks (front + 1) ++ line ++ blanks (free - front + 1)

/-- The lines of a row with the place and width of its columns. -/
def rowLines (cells : List (String × Align × Nat)) : List String :=
  let lines := cells.map (fun cell => cellLines cell.1)
  let height := lines.foldl (fun h ls => Nat.max h ls.length) 0
  (List.range height).map (fun i =>
    "|" ++ " ".intercalate ((cells.zip lines).map (fun (cell, ls) =>
      placeLine cell.2.1 cell.2.2 (ls.getD i ""))) ++ "|")

/-- The width between the sides of the frame: every column with the blanks on both sides, and one
blank between two columns. -/
def innerWidth (ws : List Nat) : Nat := ws.foldl (fun n w => n + (w + 2)) (ws.length - 1)

/-- A line of the frame. -/
def rule (ws : List Nat) (c : Char) : String :=
  "+" ++ String.ofList (List.replicate (innerWidth ws) c) ++ "+"

/-- The lines of the drawn table. -/
def lines (t : Table) : List String :=
  let ws := t.widths
  let heads := t.columns.map (fun column => (column.1, Align.center))
  let cellsOf (row : List (String × Align)) : List (String × Align × Nat) :=
    (row.zip ws).map (fun (cell, w) => (cell.1, cell.2, w))
  [rule ws '-'] ++ rowLines (cellsOf heads) ++ [rule ws '='] ++
    t.rows.flatMap (fun row => rowLines (cellsOf (row.zip (t.columns.map (·.2))))) ++ [rule ws '-']

end Table
end Atlas.Text
