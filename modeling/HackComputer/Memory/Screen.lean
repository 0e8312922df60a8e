import HackComputer.Memory.Ram
import HackComputer.Memory.Region

/-!
# The screen

512 by 256 pixels, black or white, in words of sixteen: 32 words a row, rows
from top to bottom, the least significant bit of a word leftmost.
-/

namespace HackComputer

/-- The framebuffer. -/
structure Screen where
  words : Ram screenSize
  deriving DecidableEq, Repr

namespace Screen

/-- The number of pixel columns. -/
def width : Nat := 512

/-- The number of pixel rows. -/
def height : Nat := 256

/-- A white screen. -/
def zero : Screen :=
  ⟨.zero⟩

/-- The word at an offset. -/
def read (screen : Screen) (offset : Fin screenSize) : Word :=
  screen.words.read offset

/-- The screen after a word is stored at an offset. -/
def write (screen : Screen) (offset : Fin screenSize) (value : Word) : Screen :=
  ⟨screen.words.write offset value⟩

/-- The pixel in column `x` and row `y`: true for black. -/
def pixel (screen : Screen) (x : Fin width) (y : Fin height) : Bool :=
  (screen.read ⟨32 * y.val + x.val / 16, by
    have := x.isLt
    have := y.isLt
    simp only [width, height, screenSize] at *
    omega⟩).getLsbD (x.val % 16)

/-- The pixel in column `x` and row `y`, for any two numbers. -/
def pixel? (screen : Screen) (x y : Nat) : Except OutOfRange Bool :=
  if h : x < width ∧ y < height then .ok (screen.pixel ⟨x, h.1⟩ ⟨y, h.2⟩)
  else .error (.pixel x y)

/-- Is there a black pixel in column `x` and row `y`?  There is none outside
the screen. -/
def isBlack (screen : Screen) (x y : Nat) : Bool :=
  if h : x < width ∧ y < height then screen.pixel ⟨x, h.1⟩ ⟨y, h.2⟩ else false

/-- The `index`-th interval of `length` numbers, cut off at `limit`. -/
def block (length limit index : Nat) : List Nat :=
  List.range' (index * length) (min ((index + 1) * length) limit - index * length)

/-- The least size of a block such that `count` blocks cover `total`. -/
def blockSize (total count : Nat) : Nat :=
  (total + count - 1) / count

/-- The screen as `rows` lines of `cols` characters, both limited to the number
of pixels.  A character stands for a block of pixels and is `#` if one of them
is black. -/
def render (screen : Screen) (cols rows : Nat) : List String :=
  let cols := max 1 (min cols width)
  let rows := max 1 (min rows height)
  let blockWidth := blockSize width cols
  let blockHeight := blockSize height rows
  (List.range rows).map fun row =>
    String.ofList <| (List.range cols).map fun col =>
      if (block blockHeight height row).any fun y =>
          (block blockWidth width col).any fun x => screen.isBlack x y
      then '#' else '.'

end Screen

end HackComputer
