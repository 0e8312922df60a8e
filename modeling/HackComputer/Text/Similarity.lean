/-!
# Similar words

Two words are alike in the characters that they have in common at nearby
places, and less so the more of these stand in another order.  Each character
is counted once.
-/

namespace HackComputer.Text

/-- The characters of a word, each with the mark of whether it has been paired
off. -/
abbrev Marked := List (Char × Bool)

namespace Marked

/-- A word of which no character has been paired off. -/
def ofWord (word : List Char) : Marked :=
  word.map fun char => (char, false)

/-- The characters that have been paired off. -/
def paired (marked : Marked) : List Char :=
  (marked.filter fun entry => entry.2).map fun entry => entry.1

/-- Pairs off the first free `char` from the place `low` to the place `high`,
where the word starts at `place`. -/
def pairOff (char : Char) (low high : Nat) : Nat → Marked → Option Marked
  | _, [] => none
  | place, (other, isPaired) :: rest =>
    if low ≤ place ∧ place ≤ high ∧ isPaired = false ∧ other = char then
      some ((other, true) :: rest)
    else (pairOff char low high (place + 1) rest).map ((other, isPaired) :: ·)

/-- Pairs off the characters of a word that starts at `place`, each with one
that is at most `range` places away: the characters that found a partner, and
the other word after that. -/
def pairWord (range : Nat) : Nat → List Char → Marked → List Char × Marked
  | _, [], marked => ([], marked)
  | place, char :: rest, marked =>
    match pairOff char (place - range) (place + range) 0 marked with
    | none => pairWord range (place + 1) rest marked
    | some marked =>
      let (found, marked) := pairWord range (place + 1) rest marked
      (char :: found, marked)

end Marked

/-- The characters that two words have in common, in the order of each word.
Nearby are places that are apart by less than half of the longer word. -/
def commonChars (left right : List Char) : List Char × List Char :=
  let range := max left.length right.length / 2 - 1
  let (found, marked) := (Marked.ofWord right).pairWord range 0 left
  (found, marked.paired)

/-- Are two words alike?  They are if three shares have a mean of at least seven
tenths: those of the common characters in the first word and in the second one,
and that of the common characters that need not change places. -/
def areAlike (left right : List Char) : Bool :=
  let (inLeft, inRight) := commonChars left right
  let common := inLeft.length
  let moved := ((inLeft.zip inRight).countP fun pair => pair.1 != pair.2) / 2
  let product := left.length * right.length
  0 < common &&
    21 * product * common ≤
      10 * (common * common * (left.length + right.length) + (common - moved) * product)

end HackComputer.Text
