import HackComputer.Proofs.Machine.Fault
import HackComputer.Proofs.Memory.Program

/-!
# The processor's cycle in the machine's

The machine does not read memory for an instruction that takes no operand from there, and
hands the processor a zero.  Any other word would do: an evaluation depends on the word
offered as M only if the instruction selects it.  So a step of the machine is a cycle of
the processor on every word that may be offered, followed by the memory write that the
cycle drives.
-/

namespace HackComputer

/-- An instruction takes its operand from memory exactly if its control lines select
memory. -/
theorem Instruction.readsMemory_eq (instruction : Instruction) :
    instruction.readsMemory = (instruction.signals.ySource == .memory) := by
  cases instruction <;> rfl

namespace Cpu

variable (cpu : Cpu) {word : Word}

/-- A word that is not selected is not seen. -/
theorem evaluate_congr (unread : (Instruction.decode word).readsMemory = false)
    (first second : Word) : cpu.evaluate word first = cpu.evaluate word second := by
  rw [Instruction.readsMemory_eq] at unread
  cases source : (Instruction.decode word).signals.ySource with
  | register => simp only [evaluate, source]
  | memory =>
      rw [source] at unread
      contradiction

theorem cycle_congr (unread : (Instruction.decode word).readsMemory = false)
    (first second : Word) (reset : Bool) :
    cpu.cycle word first reset = cpu.cycle word second reset := by
  rw [cycle, cycle, cpu.evaluate_congr unread first second]

end Cpu

namespace Machine

/-- The word may be offered to the processor as M in the next cycle: it is the word at the
data address, unless the instruction takes no operand from memory. -/
def Offers (machine : Machine) (inM : Word) : Prop :=
  machine.instruction.readsMemory = true → machine.memory.read machine.cpu.addressM = .ok inM

variable {machine : Machine}

/-- A cycle that is not refused has a word to offer. -/
theorem offers_inM (allowed : ¬machine.Faults) : machine.Offers machine.inM := by
  intro reads
  have read_allowed : ¬machine.memory.Traps machine.cpu.addressM :=
    fun traps => machine.not_reads_and_traps allowed ⟨reads, traps⟩
  rw [Memory.read_eq, if_neg read_allowed, inM, if_pos reads]

/-- Whatever word is offered, the processor evaluates the same. -/
theorem Offers.evaluate_eq {inM : Word} (offers : machine.Offers inM) :
    machine.cpu.evaluate (machine.rom.fetch machine.cpu.pc) inM = machine.evaluation := by
  cases reads : machine.instruction.readsMemory with
  | false => exact machine.cpu.evaluate_congr reads inM machine.inM
  | true =>
      have operand_eq : machine.operand machine.instruction = .ok inM := by
        rw [operand, if_pos reads, offers reads]
      rw [evaluation, machine.inM_of_operand_eq_ok operand_eq]

/-- The processor and memory after a step are those after a cycle of the processor and the
write that the cycle drives. -/
theorem Offers.cycle_eq {inM : Word} (offers : machine.Offers inM) :
    machine.cpu.cycle (machine.rom.fetch machine.cpu.pc) inM machine.resetLine =
      (machine.cycleInfo.outputs, machine.next.cpu) := by
  rw [Cpu.cycle, offers.evaluate_eq]
  rfl

theorem write_outputs_eq (allowed : ¬machine.Faults) :
    machine.memory.write machine.cycleInfo.outputs.addressM machine.cycleInfo.outputs.outM
      machine.cycleInfo.outputs.writeM = (.ok (), machine.next.memory) :=
  machine.write_evaluation_eq.trans (if_neg (machine.not_writes_and_traps allowed))

/-- Neither the evaluation of an instruction that does not select M nor its cycle depends
on the word at M.  And a step that succeeds is a cycle of the processor: there is a word
to offer it, and for every such word, which is any word at all if M is not selected, the
cycle gives the outputs and the registers of the step, and the write of these outputs
gives its memory. -/
theorem step_is_processor_cycle :
    (∀ (cpu : Cpu) (word : Word), (Instruction.decode word).readsMemory = false →
      ∀ first second : Word, cpu.evaluate word first = cpu.evaluate word second ∧
        ∀ reset, cpu.cycle word first reset = cpu.cycle word second reset) ∧
    ∀ (machine : Machine) (info : StepInfo) (after : Machine),
      machine.step = (.ok info, after) →
      (∃ inM, machine.Offers inM) ∧
      ∀ inM, machine.Offers inM →
        machine.cpu.cycle (machine.rom.fetch machine.cpu.pc) inM machine.resetLine =
            (info.outputs, after.cpu) ∧
          machine.memory.write info.outputs.addressM info.outputs.outM info.outputs.writeM =
            (.ok (), after.memory) := by
  constructor
  · intro cpu word unread first second
    exact ⟨cpu.evaluate_congr unread first second, cpu.cycle_congr unread first second⟩
  · intro machine info after stepped
    obtain ⟨allowed, rfl, rfl⟩ := step_eq_ok_iff.1 stepped
    exact ⟨⟨_, offers_inM allowed⟩, fun inM offers => ⟨offers.cycle_eq, write_outputs_eq allowed⟩⟩

/-- A machine with the program `@5, M=M+1` and 41 in the cell at 5. -/
def counting : Machine :=
  (((ofConfig {}).withProgram [0x0005, 0xFDC8] (by decide)).poke 5 41).2

/-- The first step of `counting` is a cycle on any word, its second step the cycle on 41
that stores 42. -/
theorem steps_of_counting_are_processor_cycles :
    ∃ first second after last, counting.step = (.ok first, after) ∧
      counting.cpu.cycle 0x0005 0xBEEF false = (first.outputs, after.cpu) ∧
      after.step = (.ok second, last) ∧
      after.cpu.cycle 0xFDC8 41 false = (second.outputs, last.cpu) ∧
      after.memory.write 5 42 true = (.ok (), last.memory) ∧
      Cpu.zero.evaluate 0x0005 0xBEEF = Cpu.zero.evaluate 0x0005 0 := by
  have first_step : counting.step = (.ok counting.cycleInfo, counting.next) :=
    step_of_ignore rfl
  have second_step : counting.next.step = (.ok counting.next.cycleInfo, counting.next.next) :=
    step_of_ignore (unmapped_next.trans rfl)
  have loads : counting.instruction.readsMemory = false := by
    decide +kernel
  have anything : counting.Offers 0xBEEF := fun reads =>
    absurd (loads.symm.trans reads) Bool.false_ne_true
  have stored : counting.next.Offers 41 := fun _ => by
    decide +kernel
  obtain ⟨independent, cycles⟩ := step_is_processor_cycle
  obtain ⟨-, first_cycle⟩ := cycles _ _ _ first_step
  obtain ⟨-, second_cycle⟩ := cycles _ _ _ second_step
  obtain ⟨first_eq, -⟩ := first_cycle 0xBEEF anything
  obtain ⟨second_eq, write_eq⟩ := second_cycle 41 stored
  have first_word : counting.rom.fetch counting.cpu.pc = 0x0005 := by
    decide +kernel
  have second_word : counting.next.rom.fetch counting.next.cpu.pc = 0xFDC8 := by
    decide +kernel
  have outputs_eq : counting.next.cycleInfo.outputs.addressM = 5 ∧
      counting.next.cycleInfo.outputs.outM = 42 ∧
      counting.next.cycleInfo.outputs.writeM = true := by
    decide +kernel
  rw [first_word] at first_eq
  rw [second_word] at second_eq
  rw [outputs_eq.1, outputs_eq.2.1, outputs_eq.2.2] at write_eq
  exact ⟨_, _, _, _, first_step, first_eq, second_step, second_eq, write_eq,
    (independent Cpu.zero 0x0005 (by decide) 0xBEEF 0).1⟩

end Machine

end HackComputer
