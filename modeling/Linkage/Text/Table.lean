import Linkage.Text.Blank
import Linkage.Text.Width

/-! Text in colours and in columns. -/
namespace Linkage

/-- How a text is shown on a terminal that has colours. -/
inductive Style where
  | bold | red | green | yellow | magenta | boldRed
  deriving DecidableEq, Repr

def Style.code : Style → String
  | .bold => "1"
  | .red => "31"
  | .green => "32"
  | .yellow => "33"
  | .magenta => "35"
  | .boldRed => "1;31"

/-- What starts a style. -/
def Style.start (style : Style) : String := "\x1b[" ++ style.code ++ "m"

/-- What ends all styles. -/
def plainStart : String := "\x1b[0m"

/-- A text in a style, if there are colours. The style starts again where the text ends all. -/
def paint (colored : Bool) (style : Style) (text : String) : String :=
  if colored then
    style.start ++ (plainStart ++ style.start).intercalate (text.splitOn plainStart) ++ plainStart
  else text

namespace Table

/-- How far the code of a style has come. -/
private inductive CodeState where
  | outside | escape | inside

/-- The characters of styles' codes, which are not seen. Escape characters are not counted. -/
private def hiddenChars : CodeState → List Char → Nat
  | _, [] => 0
  | .outside, c :: cs => hiddenChars (if c = '\x1b' then .escape else .outside) cs
  | .escape, c :: cs => if c = '[' then hiddenChars .inside cs + 1 else hiddenChars .outside cs
  | .inside, c :: cs =>
    let isSeen := !isControl c && 0 < charWidth c
    hiddenChars (if c = 'm' then .outside else .inside) cs + (if isSeen then 1 else 0)

/-- A line of a cell and its columns. -/
structure Line where
  text : String
  width : Nat

/-- A line, if its columns are more than what its styles hide. -/
def Line.ofText? (text : String) : Option Line :=
  let hidden := hiddenChars .outside text.toList
  if hidden ≤ textWidth text then some ⟨text, textWidth text - hidden⟩ else none

abbrev Cell := List Line

def Cell.ofText? (text : String) : Option Cell := (lines text).mapM Line.ofText?

/-- The columns of the widest line. -/
def Cell.width (cell : Cell) : Nat := (cell.map (·.width)).foldl max 0

def columnWidths (rows : List (List Cell)) : List Nat :=
  rows.foldl (fun widths row =>
    (List.range (max widths.length row.length)).map fun i =>
      max (widths.getD i 0) (Cell.width (row.getD i []))) []

private def pad (width : Nat) (line : Line) : String :=
  line.text ++ String.ofList (List.replicate (width - line.width) ' ')

/-- One line of a row. Each cell has a space on both sides, and the last one is not filled up. -/
private def rowLine (widths : List Nat) (row : List Cell) (n : Nat) : String :=
  let line (cell : Cell) : Line := cell.getD n ⟨"", 0⟩
  let filled := (widths.zip row).dropLast.map fun (width, cell) =>
    " " ++ pad width (line cell) ++ " "
  String.join filled ++ " " ++ (line (row.getLast?.getD [])).text ++ " "

/-- The lines of a table; a row is as high as its highest cell. -/
def render? (rows : List (List String)) : Option (List String) := do
  let rows ← rows.mapM (·.mapM Cell.ofText?)
  let widths := columnWidths rows
  return rows.flatMap fun row =>
    (List.range ((row.map List.length).foldl max 0)).map (rowLine widths row)

end Table
end Linkage
