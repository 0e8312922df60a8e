import HackComputer.Instruction.Code
import HackComputer.Registers

/-!
# The processor

One cycle has a combinational half, `evaluate`, which only reads the registers,
and a clock edge, `commit`, at which A, D and the program counter latch
together.  `cycle` is both.
-/

namespace HackComputer

/-- What one cycle drives on the memory interface. -/
structure CpuOutputs where
  /-- The result, which is the value to write. -/
  outM : Word
  /-- Whether memory is written. -/
  writeM : Bool
  /-- The data address: register A as it was during the cycle. -/
  addressM : Word
  /-- The program counter after the clock edge. -/
  pc : Word
  deriving DecidableEq, Repr

/-- Everything that the combinational half of a cycle produces. -/
structure Evaluation where
  instruction : Instruction
  signals : ControlSignals
  alu : AluOutput
  /-- The value that A latches, if it loads. -/
  nextA : Option Word
  /-- The value that D latches, if it loads. -/
  nextD : Option Word
  jump : Bool
  outM : Word
  writeM : Bool
  addressM : Word
  deriving DecidableEq, Repr

/-- The processor: a register file and its control logic. -/
structure Cpu where
  registers : Registers
  deriving DecidableEq, Repr

namespace Cpu

/-- A processor with clear registers. -/
def zero : Cpu :=
  ⟨.zero⟩

/-- The value of register A. -/
def a (cpu : Cpu) : Word :=
  cpu.registers.a.value

/-- The value of register D. -/
def d (cpu : Cpu) : Word :=
  cpu.registers.d.value

/-- The value of the program counter. -/
def pc (cpu : Cpu) : Word :=
  cpu.registers.pc.value

/-- The data address: the low fifteen bits of A. -/
def addressM (cpu : Cpu) : Word :=
  cpu.a.low15

/-- The processor with its program counter overridden. -/
def setPc (cpu : Cpu) (value : Word) : Cpu :=
  ⟨{ cpu.registers with pc := cpu.registers.pc.set value }⟩

/-- The combinational half of a cycle for an instruction word and the memory
word `inM`. -/
def evaluate (cpu : Cpu) (word inM : Word) : Evaluation :=
  let instruction := Instruction.decode word
  let signals := instruction.signals
  let y := match signals.ySource with
    | .register => cpu.a
    | .memory => inM
  let alu := Alu.compute cpu.d y signals.alu
  match instruction with
  | .address literal =>
    { instruction, signals, alu
      nextA := some literal
      nextD := none
      jump := false
      outM := alu.out
      writeM := false
      addressM := cpu.addressM }
  | .compute fields =>
    { instruction, signals, alu
      nextA := if fields.dest.a then some alu.out else none
      nextD := if fields.dest.d then some alu.out else none
      jump := fields.jump.isTaken alu.zr alu.ng
      outM := alu.out
      writeM := fields.dest.m
      addressM := cpu.addressM }

/-- The clock edge.  All registers latch from values before the edge: a jump
goes to the old A. -/
def commit (cpu : Cpu) (evaluation : Evaluation) (reset : Bool) : Cpu where
  registers :=
    { a := cpu.registers.a.tick (evaluation.nextA.getD 0) evaluation.nextA.isSome
      d := cpu.registers.d.tick (evaluation.nextD.getD 0) evaluation.nextD.isSome
      pc := cpu.registers.pc.tick cpu.a evaluation.jump reset }

/-- What an evaluation drives on the memory interface, with the program counter
after the edge. -/
def outputs (evaluation : Evaluation) (pc : Word) : CpuOutputs where
  outM := evaluation.outM
  writeM := evaluation.writeM
  addressM := evaluation.addressM
  pc := pc

/-- One full cycle. -/
def cycle (cpu : Cpu) (word inM : Word) (reset : Bool) : CpuOutputs × Cpu :=
  let evaluation := cpu.evaluate word inM
  let after := cpu.commit evaluation reset
  (outputs evaluation after.pc, after)

end Cpu

end HackComputer
