import HackComputer.Proofs.Machine.Stimulus
import Mathlib.Logic.Function.Basic

/-!
# The flat machine

A second account of the instruction set, with nothing between the instruction
word and its effect: no decoded instruction, no control lines, one map from all
data addresses to words, and the bits of the instruction word looked at where
they matter.  Addresses have fifteen bits here and wrap by themselves.
-/

namespace HackComputer

/-- The registers, the two memories, the reset line and the policy for unmapped
addresses. -/
@[ext]
structure FlatMachine where
  a : Word
  d : Word
  pc : BitVec 15
  rom : BitVec 15 → Word
  cells : BitVec 15 → Word
  resetLine : Bool
  unmapped : UnmappedPolicy

namespace FlatMachine

/-- The address of the keyboard.  There is storage that instructions can change
below it, and nothing above it. -/
def keyboard : BitVec 15 :=
  0x6000

/-- A flat machine about to run a program from address 0.  Program memory past
the program is zero. -/
def start (program : List Word) (a d : Word) (cells : BitVec 15 → Word) (resetLine : Bool)
    (unmapped : UnmappedPolicy) : FlatMachine where
  a := a
  d := d
  pc := 0
  rom := fun index => program.getD index.toNat 0
  cells := cells
  resetLine := resetLine
  unmapped := unmapped

variable (machine : FlatMachine)

/-- The instruction word of the next cycle. -/
def word : Word :=
  machine.rom machine.pc

/-- The data address, which is also the target of a jump: A modulo `2 ^ 15`. -/
def address : BitVec 15 :=
  machine.a.setWidth 15

/-- The second operand: A, or the cell that A addresses. -/
def y : Word :=
  if machine.word.getLsbD 12 then machine.cells machine.address else machine.a

/-- The result of the cycle, one stage of the unit after the other. -/
def out : Word :=
  let x := if machine.word.getLsbD 11 then 0 else machine.d
  let x := if machine.word.getLsbD 10 then ~~~x else x
  let y := if machine.word.getLsbD 9 then 0 else machine.y
  let y := if machine.word.getLsbD 8 then ~~~y else y
  let out := if machine.word.getLsbD 7 then x + y else x &&& y
  if machine.word.getLsbD 6 then ~~~out else out

/-- Does the cycle jump?  A result is negative, zero or positive. -/
def jumps : Bool :=
  let zero := machine.out == 0
  let negative := machine.out.getLsbD 15
  machine.word.getLsbD 15 &&
    ((machine.word.getLsbD 2 && negative) || (machine.word.getLsbD 1 && zero) ||
      (machine.word.getLsbD 0 && !negative && !zero))

/-- Does the cycle touch a cell that it must not touch? -/
def Traps : Prop :=
  machine.unmapped = .fault ∧ keyboard < machine.address ∧ machine.word.getLsbD 15 = true ∧
    (machine.word.getLsbD 12 = true ∨ machine.word.getLsbD 3 = true)

instance : Decidable machine.Traps :=
  inferInstanceAs (Decidable (_ ∧ _))

/-- The machine after the next cycle.  Everything on the right is the machine
before the cycle, so that a jump or a store goes to the old A. -/
def next : FlatMachine :=
  { machine with
    a :=
      if machine.word.getLsbD 15 then
        if machine.word.getLsbD 5 then machine.out else machine.a
      else (machine.word.setWidth 15).setWidth 16
    d :=
      if machine.word.getLsbD 15 && machine.word.getLsbD 4 then machine.out else machine.d
    pc :=
      if machine.resetLine then 0
      else if machine.jumps then machine.address
      else machine.pc + 1
    cells :=
      if machine.word.getLsbD 15 && machine.word.getLsbD 3 && decide (machine.address < keyboard)
      then Function.update machine.cells machine.address machine.out
      else machine.cells }

/-- One cycle. -/
def step : Report × FlatMachine :=
  if machine.Traps then
    (.error (.memory (.unmappedAccess (machine.address.setWidth 16))), machine)
  else (.ok (), machine.next)

/-- The response to a stimulus.  Only cells below the keyboard can be poked, and
their addresses are taken as they are. -/
def respond : Stimulus → Report × FlatMachine
  | .step => machine.step
  | .setKeyboard key =>
      (.ok (), { machine with cells := Function.update machine.cells keyboard key })
  | .setReset asserted => (.ok (), { machine with resetLine := asserted })
  | .poke address value =>
      if address.toNat < 0x6000 then
        (.ok (),
          { machine with cells := Function.update machine.cells (address.setWidth 15) value })
      else (.error (.memory (.addressOutOfRange address)), machine)
  | .reset => (.ok (), { machine with pc := 0, resetLine := false })

/-- The reports on a list of stimuli, and the machine at the end. -/
def drive (stimuli : List Stimulus) : List Report × FlatMachine :=
  Stimulus.drive respond stimuli machine

/-- The word that an instruction reads at an address. -/
def read (address : Word) : Except MemoryError Word :=
  if machine.unmapped = .fault ∧ keyboard < address.setWidth 15 then
    .error (.unmappedAccess ((address.setWidth 15).setWidth 16))
  else .ok (machine.cells (address.setWidth 15))

end FlatMachine

end HackComputer
