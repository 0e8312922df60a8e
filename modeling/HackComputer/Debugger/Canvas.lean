/-!
# Text with colours

A frame is a list of rows of cells, each a character with a foreground colour.
Text is laid out in panels: a titled box around lines, which are cut off or
filled up to the size of the box.
-/

namespace HackComputer.Canvas

/-- A foreground colour. -/
inductive Color where
  /-- The colour of the terminal. -/
  | standard
  | red
  | green
  | yellow
  | blue
  | magenta
  | cyan
  | gray
  | darkGray
  | white
  deriving DecidableEq, Repr

/-- How a cell is shown. -/
structure Style where
  color : Color := .standard
  bold : Bool := false
  deriving DecidableEq, Repr

/-- A character on the screen. -/
structure Cell where
  char : Char
  style : Style
  deriving DecidableEq, Repr

/-- A row of cells. -/
abbrev Row := List Cell

/-- A text in one style. -/
def styled (style : Style) (text : String) : Row :=
  text.toList.map fun char => ⟨char, style⟩

/-- A text in the terminal's colour. -/
def plain (text : String) : Row :=
  styled {} text

/-- The first `width` cells of a row, with blanks in style `style` as far as
there are fewer. -/
def fit (width : Nat) (style : Style) (row : Row) : Row :=
  row.take width ++ List.replicate (width - row.length) ⟨' ', style⟩

/-- A titled box with text inside. -/
structure Panel where
  title : String
  /-- The colour of the box and its title. -/
  color : Color
  /-- The style of the blanks inside. -/
  filler : Style := {}
  lines : List Row

/-- The size of the inside of a box that is `size` cells wide or high. -/
def inner (size : Nat) : Nat :=
  size - 2

/-- The rows of a panel of a given size, the box included. -/
def Panel.draw (panel : Panel) (width height : Nat) : List Row :=
  let border := styled { color := panel.color }
  let bar := String.ofList (List.replicate (inner width) '─')
  let title := " " ++ panel.title ++ " "
  let top := border (String.ofList ((title ++ bar).toList.take (inner width)))
  let inside := panel.lines.take (inner height) ++
    List.replicate (inner height - panel.lines.length) []
  [border "┌" ++ top ++ border "┐"] ++
    (inside.map fun row => border "│" ++ fit (inner width) panel.filler row ++ border "│") ++
    [border "└" ++ border bar ++ border "┘"]

/-- Two blocks of rows side by side. -/
def beside (left right : List Row) : List Row :=
  List.zipWith (· ++ ·) left right

end HackComputer.Canvas
