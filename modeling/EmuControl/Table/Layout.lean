import EmuControl.Text.Width

/-!
# Tables

Rows of text cells under an optional header. A column is as wide as its widest line, with a blank on
both sides, and a cell with several lines makes its whole row higher. Rules stand between rows, and
a boxed table has a frame around it as well.
-/
namespace EmuControl

open EmuControl.Text

structure Table where
  /-- Whether there is a frame around the table. -/
  isBoxed : Bool
  header : Option (List String)
  rows : List (List String)
  deriving DecidableEq, Repr

namespace Table

/-- The characters of a horizontal rule. -/
structure Rule where
  left : Char
  fill : Char
  cross : Char
  right : Char

def Rule.top : Rule := ⟨'┌', '─', '┬', '┐'⟩
def Rule.underHeader : Rule := ⟨'╞', '═', '╪', '╡'⟩
def Rule.between : Rule := ⟨'├', '╌', '┼', '┤'⟩
def Rule.bottom : Rule := ⟨'└', '─', '┴', '┘'⟩

/-- The lines of a cell. -/
def cellLines (cell : String) : List String :=
  cell.splitOn "\n"

/-- The columns of the screen that a cell needs, with its padding. -/
def cellWidth (cell : String) : Nat :=
  ((cellLines cell).map displayWidth).foldl max 0 + 2

/-- The greater number at each place, where a row may be longer than the other. -/
def widen : List Nat → List Nat → List Nat
  | [], ws => ws
  | ws, [] => ws
  | v :: vs, w :: ws => max v w :: widen vs ws

/-- The width of each column. -/
def widths (t : Table) : List Nat :=
  (t.header.toList ++ t.rows).foldl (fun ws row => widen ws (row.map cellWidth)) []

def spaces (n : Nat) : String :=
  String.ofList (List.replicate n ' ')

/-- What all lines of a table have in common. -/
structure Layout where
  isBoxed : Bool
  widths : List Nat

namespace Layout

/-- Sides around the inner part of a line. -/
def framed (l : Layout) (left right : Char) (inner : String) : String :=
  if l.isBoxed then left.toString ++ inner ++ right.toString else inner

def ruleLine (l : Layout) (r : Rule) : String :=
  l.framed r.left r.right
    (r.cross.toString.intercalate (l.widths.map fun w => String.ofList (List.replicate w r.fill)))

/-- A line of a cell, filled up to the width of its column. -/
def padded (width : Nat) (line : String) : String :=
  " " ++ line ++ spaces (width - 1 - displayWidth line)

/-- The lines of a row. -/
def rowLines (l : Layout) (row : List String) : List String :=
  let cells := row.map cellLines
  let height := (cells.map List.length).foldl max 0
  (List.range height).map fun i =>
    l.framed '│' '│'
      ("┆".intercalate (List.zipWith (fun w cell => padded w ((cell[i]?).getD "")) l.widths cells))

/-- Rows with rules between them. -/
def body (l : Layout) : List (List String) → List String
  | [] => []
  | [row] => l.rowLines row
  | row :: rest => l.rowLines row ++ l.ruleLine .between :: l.body rest

/-- The header and the rule under it. -/
def head (l : Layout) : Option (List String) → List String
  | some titles => l.rowLines titles ++ [l.ruleLine .underHeader]
  | none => []

/-- A line that only a boxed table has. -/
def edge (l : Layout) (r : Rule) : List String :=
  if l.isBoxed then [l.ruleLine r] else []

end Layout

/-- The lines of a table. -/
def render (t : Table) : List String :=
  let l : Layout := ⟨t.isBoxed, t.widths⟩
  l.edge .top ++ l.head t.header ++ l.body t.rows ++ l.edge .bottom

def text (t : Table) : String :=
  "\n".intercalate t.render

end Table

end EmuControl
