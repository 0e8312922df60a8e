/-!
# Indices outside what they index

Direct access to a bit, a bit field, a memory cell or a pixel names a place by
number.  This file lists the ways in which such a number can miss, with the
text that reports each of them.
-/

namespace HackComputer

/-- Why a direct access names nothing. -/
inductive OutOfRange where
  /-- A bit index of sixteen or more. -/
  | bit
  /-- A bit field whose ends are reversed or lie outside the word. -/
  | slice
  /-- Cell `index` of a block of `size` cells. -/
  | cell (index size : Nat)
  /-- A pixel outside the screen. -/
  | pixel (x y : Nat)
  deriving DecidableEq, Repr

namespace OutOfRange

/-- The text that reports a missed access.  A block of memory is described by
its first and last index. -/
def message : OutOfRange → String
  | .bit => "bit index out of range"
  | .slice => "invalid bit slice"
  | .cell index size => s!"RAM index {index} out of range (0-{size - 1})"
  | .pixel x y => s!"pixel ({x}, {y}) off screen"

end OutOfRange

end HackComputer
