import HackComputer.Word

/-!
# Registers

Registers sample their inputs during a cycle and publish the new value at the
clock edge.  A and D are sixteen-bit registers with a load input; the program
counter addresses fifteen bits of program memory.
-/

namespace HackComputer

/-- A sixteen-bit register with a load input. -/
structure Register where
  value : Word
  deriving DecidableEq, Repr

/-- A clock edge: latch `input` if `load` is asserted. -/
def Register.tick (register : Register) (input : Word) (load : Bool) : Register :=
  if load then ⟨input⟩ else register

/-- The program counter.  Every operation leaves fifteen bits in it; a stored
value read from outside may have sixteen. -/
structure ProgramCounter where
  value : Word
  deriving DecidableEq, Repr

namespace ProgramCounter

/-- A clock edge.  Reset wins over a load, and a load over counting on, which
wraps after fifteen bits. -/
def tick (pc : ProgramCounter) (input : Word) (load reset : Bool) : ProgramCounter :=
  if reset then ⟨0⟩
  else if load then ⟨input.low15⟩
  else ⟨Word.low15 (pc.value + 1)⟩

/-- Overrides the counter, outside the clock. -/
def set (_pc : ProgramCounter) (value : Word) : ProgramCounter :=
  ⟨value.low15⟩

end ProgramCounter

/-- The register file. -/
structure Registers where
  /-- Holds an address or a constant. -/
  a : Register
  /-- Holds data. -/
  d : Register
  /-- The address of the next instruction. -/
  pc : ProgramCounter
  deriving DecidableEq, Repr

/-- All registers clear. -/
def Registers.zero : Registers :=
  ⟨⟨0⟩, ⟨0⟩, ⟨0⟩⟩

end HackComputer
