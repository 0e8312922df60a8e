import HackComputer.OutOfRange

/-!
# Machine words

A word is sixteen bits, numbered from the least significant.  Arithmetic is
that of `BitVec`: it wraps modulo `2 ^ 16`, and the signed reading of a word is
its two's complement value.
-/

namespace HackComputer

/-- A machine word: the contents of a register, a memory cell or a program
memory cell. -/
abbrev Word := BitVec 16

/-- An unsigned 64-bit quantity, the width in which offsets are exchanged with
the outside. -/
abbrev Size := BitVec 64

namespace Word

/-- Bit `index` of a word, counted from the least significant. -/
def bit? (word : Word) (index : Nat) : Except OutOfRange Bool :=
  if index < 16 then .ok (word.getLsbD index) else .error .bit

/-- The bits from `hi` down to `lo`, moved down to bit 0. -/
def slice? (word : Word) (hi lo : Nat) : Except OutOfRange Word :=
  if hi < 16 ∧ lo ≤ hi then .ok ((word.extractLsb hi lo).setWidth 16) else .error .slice

/-- The low fifteen bits of a word.  Both address buses are fifteen bits wide,
and an address instruction carries a literal of fifteen bits. -/
def low15 (word : Word) : Word :=
  (word.setWidth 15).setWidth 16

theorem toNat_low15 (word : Word) : word.low15.toNat = word.toNat % 0x8000 := by
  have := word.isLt
  simp only [low15, BitVec.toNat_setWidth]
  omega

theorem toNat_low15_lt (word : Word) : word.low15.toNat < 0x8000 := by
  rw [toNat_low15]
  exact Nat.mod_lt _ (by decide)

/-- The order of words as unsigned numbers. -/
def order (left right : Word) : Ordering :=
  compare left.toNat right.toNat

/-- The four hexadecimal digits of a word, with small letters. -/
def hexDigits (word : Word) : List Char :=
  [word.toNat / 0x1000, word.toNat / 0x100 % 16, word.toNat / 0x10 % 16, word.toNat % 16].map
    Nat.digitChar

/-- A word as `0x` and four hexadecimal digits. -/
def hex (word : Word) : String :=
  "0x" ++ String.ofList word.hexDigits

end Word

end HackComputer
