/-!
Tables of text in a box.  Every column is as wide as its widest text, counted in characters, and
every line of the box has the same number of characters.  A box with too wide a column is not drawn.
-/

namespace RobotConsole

/-- Rows of as many cells as there are headers. -/
structure BoxTable where
  headers : List String
  rows : List (List String)
  deriving DecidableEq, Repr

namespace BoxTable

/-- What a cell holds where there is nothing to show. -/
def blank : String := "-"

def new (headers : List String) : BoxTable := ⟨headers, []⟩

/-- Adds a row; missing cells are empty and cells beyond the last column are dropped. -/
def addRow (t : BoxTable) (cells : List String) : BoxTable :=
  let cells := cells.take t.headers.length
  let row := cells ++ List.replicate (t.headers.length - cells.length) ""
  { t with rows := t.rows ++ [row] }

/-- The greatest number of characters in a column, its header included. -/
def columnWidth (t : BoxTable) (column : Nat) : Nat :=
  (t.headers :: t.rows).foldl (fun w row => max w (row.getD column "").length) 0

def widths (t : BoxTable) : List Nat := (List.range t.headers.length).map t.columnWidth

def border (widths : List Nat) (left middle right : Char) : List Char :=
  left :: List.intercalate [middle] (widths.map fun w => List.replicate (w + 2) '─') ++ [right]

/-- A cell between blanks, filled up to the width of its column, and the line after it. -/
def cell (width : Nat) (text : String) : List Char :=
  ' ' :: text.toList ++ List.replicate (width - text.length) ' ' ++ [' ', '│']

def line (widths : List Nat) (cells : List String) : List Char :=
  '│' :: (List.zipWith cell widths cells).flatten

def lines (t : BoxTable) : List (List Char) :=
  let widths := t.widths
  [border widths '┌' '┬' '┐', line widths t.headers, border widths '├' '┼' '┤'] ++
    t.rows.map (line widths) ++ [border widths '└' '┴' '┘']

/-- The box, each line ended by a line feed. -/
def text (t : BoxTable) : String := String.ofList (t.lines.flatMap (· ++ ['\n']))

/-- The widest column that texts are filled up to. -/
def widthLimit : Nat := 65535

def isDrawable (t : BoxTable) : Bool := t.widths.all fun w => w ≤ widthLimit

def text? (t : BoxTable) : Option String := if t.isDrawable then some t.text else none

/-- What is drawn up to a column that is too wide: the upper border and the headers before it. -/
def begun (t : BoxTable) : String :=
  let drawn := t.widths.takeWhile fun w => w ≤ widthLimit
  String.ofList (border t.widths '┌' '┬' '┐' ++ '\n' :: line drawn t.headers)

end BoxTable
end RobotConsole
