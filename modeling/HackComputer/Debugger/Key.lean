import HackComputer.Word

/-!
# Key codes

The platform gives a code to each key: printable ASCII characters have their
own, letters in upper case, and sixteen more follow for the keys of a terminal
that print nothing.
-/

namespace HackComputer

/-- A key of a terminal. -/
inductive Key where
  /-- A key that enters a character. -/
  | char (value : Char)
  /-- A function key, by its number. -/
  | function (number : Nat)
  | enter
  | backspace
  | left
  | up
  | right
  | down
  | home
  | lineEnd
  | pageUp
  | pageDown
  | insert
  | delete
  | escape
  /-- A key without a code. -/
  | other
  deriving DecidableEq, Repr

/-- Is the character an ASCII character that prints? -/
def Key.isPrintable (char : Char) : Bool :=
  ' ' ≤ char && char ≤ '~'

/-- The code of a key, if it has one. -/
def Key.code? : Key → Option Word
  | .char value => if isPrintable value then some (.ofNat 16 value.toUpper.toNat) else none
  | .function number =>
    if 1 ≤ number ∧ number ≤ 12 then some (.ofNat 16 (140 + number)) else none
  | .enter => some 128
  | .backspace => some 129
  | .left => some 130
  | .up => some 131
  | .right => some 132
  | .down => some 133
  | .home => some 134
  | .lineEnd => some 135
  | .pageUp => some 136
  | .pageDown => some 137
  | .insert => some 138
  | .delete => some 139
  | .escape => some 140
  | .other => none

end HackComputer
