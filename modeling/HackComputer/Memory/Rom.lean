import HackComputer.Memory.Error

/-!
# Program memory

32768 words, addressed by the program counter.  Loading replaces the whole
contents: what lies past the program reads as zero.
-/

namespace HackComputer

/-- Program memory. -/
structure Rom where
  words : Vector Word romSize
  /-- The number of words in the loaded program. -/
  loaded : Nat
  deriving DecidableEq, Repr

namespace Rom

/-- Program memory without a program. -/
def zero : Rom :=
  ⟨Vector.replicate romSize 0, 0⟩

/-- Program memory that holds `program` and zeros after it. -/
def ofProgram (program : List Word) : Except MemoryError Rom :=
  if fits : program.length ≤ romSize then
    .ok
      { words := ⟨program.toArray ++ Array.replicate (romSize - program.length) 0, by
          simp; omega⟩
        loaded := program.length }
  else .error (.programTooLarge program.length)

/-- The instruction at a value of the program counter.  Bit 15 is ignored. -/
def fetch (rom : Rom) (pc : Word) : Word :=
  rom.words.get ⟨pc.low15.toNat, pc.toNat_low15_lt⟩

end Rom

end HackComputer
