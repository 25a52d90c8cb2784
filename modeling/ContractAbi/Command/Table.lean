import ContractAbi.Text.Width

/-!
# Tables

Cells stand between box-drawing lines with a space on either side.  A column is
as wide as its widest cell and a row as high as its highest, lines of a cell
being separated by line feeds.
-/

namespace ContractAbi.Table

def cellLines : List Char → List (List Char)
  | [] => [[]]
  | character :: text =>
    if character = '\n' then [] :: cellLines text
    else
      match cellLines text with
      | [] => [[character]]
      | first :: others => (character :: first) :: others

/-- The lines of each cell of a row. -/
abbrev Row := List (List (List Char))

def rowOf (cells : List String) : Row := cells.map fun cell => cellLines cell.toList

def cellWidth (cell : List (List Char)) : Nat :=
  cell.foldl (fun widest line => max widest (Text.width line)) 0

def rowHeight (row : Row) : Nat :=
  row.foldl (fun highest cell => max highest cell.length) 1

/-- The widths of the columns of rows that all have as many cells as the first. -/
def columnWidths (first : Row) (others : List Row) : List Nat :=
  others.foldl (fun widths row => (widths.zip row).map fun (width, cell) =>
    max width (cellWidth cell)) (first.map cellWidth)

/-- A line across the table: its left end, what it is drawn with, how it crosses
the lines between columns, and its right end. -/
def rule (left stroke crossing right : Char) (widths : List Nat) : List Char :=
  [left] ++ [crossing].intercalate (widths.map fun width => List.replicate (width + 2) stroke) ++
    [right]

def padded (width : Nat) (line : List Char) : List Char :=
  [' '] ++ line ++ List.replicate (width - Text.width line) ' ' ++ [' ']

def rowLine (widths : List Nat) (row : Row) (number : Nat) : List Char :=
  ['│'] ++ ['┆'].intercalate ((widths.zip row).map fun (width, cell) =>
    padded width ((cell[number]?).getD [])) ++ ['│']

def rowLines (widths : List Nat) (row : Row) : List (List Char) :=
  (List.range (rowHeight row)).map (rowLine widths row)

def lines (header : List String) (rows : List (List String)) : List (List Char) :=
  let header := rowOf header
  let rows := rows.map rowOf
  let widths := columnWidths header rows
  let separator := rule '├' '╌' '┼' '┤' widths
  [rule '┌' '─' '┬' '┐' widths] ++ rowLines widths header ++ [rule '╞' '═' '╪' '╡' widths] ++
    [separator].intercalate (rows.map (rowLines widths)) ++ [rule '└' '─' '┴' '┘' widths]

/-- The text of a table with a header, without a line feed at the end. -/
def render (header : List String) (rows : List (List String)) : List Char :=
  ['\n'].intercalate (lines header rows)

end ContractAbi.Table
