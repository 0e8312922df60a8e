import HackComputer.Machine
import HackComputer.Proofs.Memory.Contents

/-!
# What one cycle does

A cycle either is refused, which leaves the whole machine as it was, or takes
the machine to `Machine.next`.  `Machine.Faults` says which, and the two
equations `step_of_faults` and `step_of_not_faults` replace the definition of
`step` from here on.  The registers and the memory of `next` are then read off
the instruction, once for address instructions and once for compute
instructions.
-/

namespace HackComputer

namespace Instruction

/-- Does the instruction store its result in memory? -/
def writesMemory : Instruction → Bool
  | .address _ => false
  | .compute fields => fields.dest.m

/-- Does the instruction read or write memory? -/
def usesMemory (instruction : Instruction) : Bool :=
  instruction.readsMemory || instruction.writesMemory

theorem usesMemory_eq_true_iff {instruction : Instruction} :
    instruction.usesMemory = true ↔
      ∃ fields, instruction = .compute fields ∧
        (fields.ySource = .memory ∨ fields.dest.m = true) := by
  cases instruction <;> simp [usesMemory, readsMemory, writesMemory]

end Instruction

namespace Compute

/-- The second operand, for the value of A and the word that memory offers. -/
def operand (fields : Compute) (a inM : Word) : Word :=
  match fields.ySource with
  | .register => a
  | .memory => inM

/-- The result for the value of D and the second operand. -/
def result (fields : Compute) (d y : Word) : Word :=
  Alu.result d y fields.alu

/-- Is the jump taken for this result? -/
def jumpsOn (fields : Compute) (out : Word) : Bool :=
  fields.jump.isTaken (out == 0) out.msb

end Compute

namespace Cpu

variable (cpu : Cpu)

theorem evaluate_of_address (inM : Word) {word literal : Word}
    (found : Instruction.decode word = .address literal) :
    (cpu.evaluate word inM).nextA = some literal ∧ (cpu.evaluate word inM).nextD = none ∧
      (cpu.evaluate word inM).jump = false := by
  simp [evaluate, found]

theorem evaluate_of_compute (inM : Word) {word : Word} {fields : Compute}
    (found : Instruction.decode word = .compute fields) :
    let out := fields.result cpu.d (fields.operand cpu.a inM)
    (cpu.evaluate word inM).nextA = (if fields.dest.a then some out else none) ∧
      (cpu.evaluate word inM).nextD = (if fields.dest.d then some out else none) ∧
      (cpu.evaluate word inM).jump = fields.jumpsOn out ∧
      (cpu.evaluate word inM).outM = out := by
  rcases fields with ⟨source, flags, dest, jump⟩
  cases source <;>
    simp [evaluate, found, Compute.operand, Compute.result, Compute.jumpsOn, Alu.compute]

@[simp]
theorem evaluate_addressM (word inM : Word) :
    (cpu.evaluate word inM).addressM = cpu.addressM := by
  simp only [evaluate]
  split <;> rfl

@[simp]
theorem evaluate_signals (word inM : Word) :
    (cpu.evaluate word inM).signals = (Instruction.decode word).signals := by
  simp only [evaluate]
  split <;> rfl

@[simp]
theorem evaluate_writeM (word inM : Word) :
    (cpu.evaluate word inM).writeM = (Instruction.decode word).writesMemory := by
  cases found : Instruction.decode word <;> simp [evaluate, found, Instruction.writesMemory]

@[simp]
theorem commit_a (evaluation : Evaluation) (reset : Bool) :
    (cpu.commit evaluation reset).a = evaluation.nextA.getD cpu.a := by
  cases found : evaluation.nextA <;> simp [commit, a, Register.tick, found]

@[simp]
theorem commit_d (evaluation : Evaluation) (reset : Bool) :
    (cpu.commit evaluation reset).d = evaluation.nextD.getD cpu.d := by
  cases found : evaluation.nextD <;> simp [commit, d, Register.tick, found]

@[simp]
theorem commit_pc (evaluation : Evaluation) (reset : Bool) :
    (cpu.commit evaluation reset).pc =
      if reset then 0 else if evaluation.jump then cpu.addressM else Word.low15 (cpu.pc + 1) := by
  simp only [commit, pc, ProgramCounter.tick, addressM]
  split
  · rfl
  · split <;> rfl

end Cpu

namespace Machine

variable (machine : Machine)

/-- The instruction that the next cycle executes. -/
def instruction : Instruction :=
  .decode (machine.rom.fetch machine.cpu.pc)

/-- The memory word that the next cycle takes as its operand, zero if it takes
none. -/
def inM : Word :=
  if machine.instruction.readsMemory then machine.memory.word machine.cpu.addressM else 0

/-- What the next cycle evaluates. -/
def evaluation : Evaluation :=
  machine.cpu.evaluate (machine.rom.fetch machine.cpu.pc) machine.inM

/-- What happens in the next cycle, if it is not refused. -/
def cycleInfo : StepInfo where
  pc := machine.cpu.pc
  word := machine.rom.fetch machine.cpu.pc
  instruction := machine.instruction
  outputs :=
    Cpu.outputs machine.evaluation (machine.cpu.commit machine.evaluation machine.resetLine).pc

/-- The machine after the next cycle, if it is not refused. -/
def next : Machine :=
  { machine with
    cpu := machine.cpu.commit machine.evaluation machine.resetLine
    memory :=
      if machine.instruction.writesMemory then
        machine.memory.store machine.cpu.addressM machine.evaluation.outM
      else machine.memory
    state :=
      machine.state.next machine.resetLine machine.haltDetection machine.rom machine.cycleInfo
    cycles := machine.cycles + 1
    lastStep := some machine.cycleInfo }

/-- Is the next cycle refused? -/
def Faults : Prop :=
  machine.memory.Traps machine.cpu.addressM ∧ machine.instruction.usesMemory = true

instance : Decidable machine.Faults :=
  inferInstanceAs (Decidable (_ ∧ _))

/-- The error of a refused cycle. -/
def fault : MachineError :=
  .memory (.unmappedAccess machine.cpu.addressM)

theorem addressM_low15 : machine.cpu.addressM.low15 = machine.cpu.addressM :=
  Word.low15_low15 machine.cpu.a

theorem operand_eq :
    machine.operand machine.instruction =
      if machine.instruction.readsMemory = true ∧ machine.memory.Traps machine.cpu.addressM then
        .error (.unmappedAccess machine.cpu.addressM)
      else .ok machine.inM := by
  simp only [operand, inM, Memory.read_eq, addressM_low15]
  by_cases reads : machine.instruction.readsMemory = true
  · simp only [reads, if_true, true_and]
  · simp only [reads, false_and, if_false, Bool.false_eq_true]

theorem inM_of_operand_eq_ok {inM : Word}
    (read : machine.operand machine.instruction = .ok inM) : inM = machine.inM := by
  rw [operand_eq] at read
  split at read
  · contradiction
  · exact (Except.ok.inj read).symm

theorem write_evaluation_eq :
    machine.memory.write machine.evaluation.addressM machine.evaluation.outM
        machine.evaluation.writeM =
      if machine.instruction.writesMemory = true ∧ machine.memory.Traps machine.cpu.addressM then
        (.error (.unmappedAccess machine.cpu.addressM), machine.memory)
      else (.ok (), machine.next.memory) := by
  simp only [evaluation, Cpu.evaluate_addressM, Cpu.evaluate_writeM, Memory.write_eq,
    addressM_low15]
  rfl

/-- A cycle that is not refused may read its operand. -/
theorem not_reads_and_traps (allowed : ¬machine.Faults) :
    ¬(machine.instruction.readsMemory = true ∧ machine.memory.Traps machine.cpu.addressM) := by
  rintro ⟨reads, traps⟩
  exact allowed ⟨traps, by rw [Instruction.usesMemory, reads, Bool.true_or]⟩

/-- A cycle that is not refused may write its result. -/
theorem not_writes_and_traps (allowed : ¬machine.Faults) :
    ¬(machine.instruction.writesMemory = true ∧ machine.memory.Traps machine.cpu.addressM) := by
  rintro ⟨writes, traps⟩
  exact allowed ⟨traps, by rw [Instruction.usesMemory, writes, Bool.or_true]⟩

/-- A refused cycle leaves the machine as it was. -/
theorem step_of_faults (faults : machine.Faults) :
    machine.step = (.error machine.fault, machine) := by
  obtain ⟨traps, uses⟩ := faults
  have operand_eq := machine.operand_eq
  have write_eq := machine.write_evaluation_eq
  rw [instruction] at operand_eq
  rw [evaluation, instruction] at write_eq
  unfold step
  dsimp only
  by_cases reads : machine.instruction.readsMemory = true
  · rw [operand_eq, if_pos ⟨reads, traps⟩]
    rfl
  · have writes : machine.instruction.writesMemory = true := by
      simpa only [Instruction.usesMemory, reads, Bool.false_or] using uses
    rw [operand_eq, if_neg fun refused => reads refused.1]
    dsimp only
    rw [write_eq, if_pos ⟨writes, traps⟩]
    rfl

/-- A cycle that is not refused takes the machine to `next`. -/
theorem step_of_not_faults (allowed : ¬machine.Faults) :
    machine.step = (.ok machine.cycleInfo, machine.next) := by
  have operand_eq := machine.operand_eq
  have write_eq := machine.write_evaluation_eq
  rw [if_neg (machine.not_reads_and_traps allowed), instruction] at operand_eq
  rw [if_neg (machine.not_writes_and_traps allowed), evaluation] at write_eq
  unfold step
  dsimp only
  rw [operand_eq]
  dsimp only
  rw [write_eq]
  rfl

variable {machine}

theorem step_eq_error_iff {error : MachineError} {after : Machine} :
    machine.step = (.error error, after) ↔
      machine.Faults ∧ error = machine.fault ∧ after = machine := by
  by_cases faults : machine.Faults
  · rw [step_of_faults machine faults]
    simp only [Prod.mk.injEq, Except.error.injEq, faults, true_and]
    exact and_congr eq_comm eq_comm
  · simp [step_of_not_faults machine faults, faults]

theorem step_eq_ok_iff {info : StepInfo} {after : Machine} :
    machine.step = (.ok info, after) ↔
      ¬machine.Faults ∧ info = machine.cycleInfo ∧ after = machine.next := by
  by_cases faults : machine.Faults
  · simp [step_of_faults machine faults, faults]
  · rw [step_of_not_faults machine faults]
    simp only [Prod.mk.injEq, Except.ok.injEq, faults, not_false_iff, true_and]
    exact and_congr eq_comm eq_comm

/-- A cycle leaves no more than fifteen bits in the program counter. -/
theorem low15_pc_next : machine.next.cpu.pc.low15 = machine.next.cpu.pc := by
  simp only [next, Cpu.commit_pc]
  split
  · rfl
  · split
    · exact machine.addressM_low15
    · exact Word.low15_low15 _

/-! ## The next machine, by kind of instruction -/

/-- An address instruction touches no memory. -/
theorem not_faults_of_address {literal : Word} (found : machine.instruction = .address literal) :
    ¬machine.Faults := by
  rintro ⟨-, uses⟩
  rw [found] at uses
  contradiction

theorem next_of_address {literal : Word} (found : machine.instruction = .address literal) :
    machine.next.cpu.a = literal ∧ machine.next.cpu.d = machine.cpu.d ∧
      machine.next.cpu.pc =
        (if machine.resetLine then 0 else Word.low15 (machine.cpu.pc + 1)) ∧
      machine.next.memory = machine.memory := by
  obtain ⟨nextA, nextD, jump⟩ := machine.cpu.evaluate_of_address machine.inM found
  refine ⟨?_, ?_, ?_, ?_⟩
  · simp only [next, Cpu.commit_a, evaluation, nextA, Option.getD_some]
  · simp only [next, Cpu.commit_d, evaluation, nextD, Option.getD_none]
  · simp only [next, Cpu.commit_pc, evaluation, jump, if_false, Bool.false_eq_true]
  · simp only [next, found, Instruction.writesMemory, if_false, Bool.false_eq_true]

/-- The result of the compute instruction `fields` on this machine. -/
def out (machine : Machine) (fields : Compute) : Word :=
  fields.result machine.cpu.d
    (fields.operand machine.cpu.a (machine.memory.word machine.cpu.addressM))

theorem evaluation_of_compute {fields : Compute} (found : machine.instruction = .compute fields) :
    machine.evaluation.nextA = (if fields.dest.a then some (machine.out fields) else none) ∧
      machine.evaluation.nextD = (if fields.dest.d then some (machine.out fields) else none) ∧
      machine.evaluation.jump = fields.jumpsOn (machine.out fields) ∧
      machine.evaluation.outM = machine.out fields := by
  have operand_eq : fields.operand machine.cpu.a machine.inM =
      fields.operand machine.cpu.a (machine.memory.word machine.cpu.addressM) := by
    rw [inM, found]
    rcases fields with ⟨source, flags, dest, jump⟩
    cases source <;> rfl
  rw [out, ← operand_eq]
  exact machine.cpu.evaluate_of_compute machine.inM found

@[simp]
theorem cycleInfo_addressM : machine.cycleInfo.outputs.addressM = machine.cpu.addressM :=
  machine.cpu.evaluate_addressM _ _

theorem cycleInfo_jumps_of_compute {fields : Compute}
    (found : machine.instruction = .compute fields) :
    machine.cycleInfo.jumps = fields.jumpsOn (machine.out fields) := by
  obtain ⟨-, -, -, outM⟩ := evaluation_of_compute found
  simp only [StepInfo.jumps, cycleInfo, found, Cpu.outputs, outM]
  rfl

theorem next_of_compute {fields : Compute} (found : machine.instruction = .compute fields) :
    machine.next.cpu.a = (if fields.dest.a then machine.out fields else machine.cpu.a) ∧
      machine.next.cpu.d = (if fields.dest.d then machine.out fields else machine.cpu.d) ∧
      machine.next.cpu.pc =
        (if machine.resetLine then 0
          else if fields.jumpsOn (machine.out fields) then machine.cpu.addressM
          else Word.low15 (machine.cpu.pc + 1)) ∧
      machine.next.memory =
        (if fields.dest.m then machine.memory.store machine.cpu.addressM (machine.out fields)
          else machine.memory) := by
  obtain ⟨nextA, nextD, jump, outM⟩ := evaluation_of_compute found
  refine ⟨?_, ?_, ?_, ?_⟩
  · rw [next, Cpu.commit_a, nextA]
    split <;> rfl
  · rw [next, Cpu.commit_d, nextD]
    split <;> rfl
  · rw [next, Cpu.commit_pc, jump]
  · rw [next, found, outM]
    rfl

end Machine

end HackComputer
