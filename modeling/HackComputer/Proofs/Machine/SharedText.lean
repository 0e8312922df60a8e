import HackComputer.Proofs.Assembly.SharedText
import HackComputer.Proofs.Machine.IdleLoop

/-!
# Words that share a text, in the same place

A machine executes a word at its program counter, and then, from the same state,
another word with the same text.  The cycles have the same outcome unless the
words take their second operand from different places and a look at memory is
more than a look: where memory forbids it, or at the keyboard, where a loop that
looks is not idle.
-/

namespace HackComputer

open Assembly (disassemble SameBarHidden)

/-- Program memory with a word in place of the one at a value of the program
counter. -/
def Rom.put (rom : Rom) (pc word : Word) : Rom :=
  { rom with words := rom.words.set pc.low15.toNat word pc.toNat_low15_lt }

theorem Rom.fetch_put (rom : Rom) (pc word address : Word) :
    (rom.put pc word).fetch address =
      if address.low15 = pc.low15 then word else rom.fetch address := by
  have inside : pc.low15.toNat < romSize := pc.toNat_low15_lt
  have bound : address.low15.toNat < romSize := address.toNat_low15_lt
  change (rom.words.set pc.low15.toNat word)[address.low15.toNat] = _
  rw [Vector.getElem_set]
  simp only [BitVec.toNat_inj, eq_comm]
  rfl

/-! ## What a word has the processor do -/

/-- Two evaluations have the processor do the same. -/
structure Evaluation.Agrees (first second : Evaluation) : Prop where
  nextA_eq : first.nextA = second.nextA
  nextD_eq : first.nextD = second.nextD
  jump_eq : first.jump = second.jump
  outM_eq : first.outM = second.outM
  writeM_eq : first.writeM = second.writeM
  addressM_eq : first.addressM = second.addressM

namespace Cpu

variable (cpu : Cpu)

/-- Words with the same text have the processor do the same, if words with the same
instruction find the same operand. -/
theorem evaluate_agrees {first second inM inM' : Word}
    (same : SameBarHidden (.decode first) (.decode second))
    (inM_eq : Instruction.decode first = Instruction.decode second → inM = inM') :
    (cpu.evaluate first inM).Agrees (cpu.evaluate second inM') := by
  rcases same with decode_eq | ⟨fields, source, found, found', hidden⟩
  · obtain rfl := inM_eq decode_eq
    have evaluate_eq : cpu.evaluate first inM = cpu.evaluate second inM := by
      simp only [evaluate, decode_eq]
    rw [evaluate_eq]
    exact ⟨rfl, rfl, rfl, rfl, rfl, rfl⟩
  · obtain ⟨nextA, nextD, jump, outM⟩ := cpu.evaluate_of_compute inM found
    obtain ⟨nextA', nextD', jump', outM'⟩ := cpu.evaluate_of_compute inM' found'
    have out_eq : fields.result cpu.d (fields.operand cpu.a inM) =
        fields.result cpu.d (Compute.operand { fields with ySource := source } cpu.a inM') :=
      Compute.result_congr hidden _ _ _
    rw [out_eq] at nextA nextD jump outM
    refine ⟨nextA.trans nextA'.symm, nextD.trans nextD'.symm, jump.trans jump'.symm,
      outM.trans outM'.symm, ?_, ?_⟩
    · rw [evaluate_writeM, evaluate_writeM, found, found']
      rfl
    · rw [evaluate_addressM, evaluate_addressM]

variable {cpu} {first second : Evaluation}

theorem commit_congr (agrees : first.Agrees second) (reset : Bool) :
    cpu.commit first reset = cpu.commit second reset := by
  rw [commit, commit, agrees.nextA_eq, agrees.nextD_eq, agrees.jump_eq]

theorem outputs_congr (agrees : first.Agrees second) (pc : Word) :
    outputs first pc = outputs second pc := by
  rw [outputs, outputs, agrees.outM_eq, agrees.writeM_eq, agrees.addressM_eq]

end Cpu

/-- Did the cycle close a loop that is idle if it does not look at the keyboard? -/
def StepInfo.closesLoop (info : StepInfo) (rom : Rom) : Bool :=
  info.jumps && info.storesNothing &&
    (info.outputs.addressM == info.pc ||
      (Word.low15 (info.outputs.addressM + 1) == info.pc &&
        Instruction.decode (rom.fetch info.outputs.addressM) == .address info.outputs.addressM))

theorem StepInfo.entersIdleLoop_eq (info : StepInfo) (rom : Rom) :
    info.entersIdleLoop rom = (info.closesLoop rom && !info.readsKeyboard) := by
  simp only [entersIdleLoop, closesLoop, Bool.and_assoc, Bool.and_comm (!info.readsKeyboard)]

namespace Machine

variable (machine : Machine)

/-- The machine with a word in place of the one at its program counter. -/
def withWord (word : Word) : Machine :=
  { machine with rom := machine.rom.put machine.cpu.pc word }

@[simp]
theorem fetch_withWord (word : Word) :
    (machine.withWord word).rom.fetch machine.cpu.pc = word := by
  rw [withWord, Rom.fetch_put, if_pos rfl]

@[simp]
theorem instruction_withWord (word : Word) :
    (machine.withWord word).instruction = .decode word :=
  congrArg Instruction.decode (machine.fetch_withWord word)

theorem cycleInfo_jumps : machine.cycleInfo.jumps = machine.evaluation.jump := by
  cases found : machine.instruction with
  | address literal =>
      obtain ⟨-, -, jump⟩ := machine.cpu.evaluate_of_address machine.inM found
      rw [StepInfo.jumps, show machine.cycleInfo.instruction = _ from found, evaluation, jump]
  | compute fields =>
      obtain ⟨-, -, jump, -⟩ := evaluation_of_compute found
      rw [cycleInfo_jumps_of_compute found, jump]

theorem faults_withWord_iff (word : Word) :
    (machine.withWord word).Faults ↔
      machine.memory.Traps machine.cpu.addressM ∧ (Instruction.decode word).usesMemory = true := by
  rw [Faults, instruction_withWord]
  rfl

/-! ## Two words in the same place -/

section Words

variable {first second : Word} (same : SameBarHidden (.decode first) (.decode second))
include same

theorem evaluation_agrees :
    (machine.withWord first).evaluation.Agrees (machine.withWord second).evaluation := by
  have fetched (word : Word) : (machine.withWord word).evaluation =
      machine.cpu.evaluate word (machine.withWord word).inM :=
    congrArg (machine.cpu.evaluate · (machine.withWord word).inM) (machine.fetch_withWord word)
  rw [fetched, fetched]
  apply machine.cpu.evaluate_agrees same
  intro decode_eq
  rw [inM, inM, instruction_withWord, instruction_withWord, decode_eq]
  rfl

theorem writesMemory_eq :
    (Instruction.decode first).writesMemory = (Instruction.decode second).writesMemory := by
  rcases same with decode_eq | ⟨fields, source, found, found', -⟩
  · rw [decode_eq]
  · rw [found, found']
    rfl

theorem storesNothing_eq :
    (machine.withWord first).cycleInfo.storesNothing =
      (machine.withWord second).cycleInfo.storesNothing := by
  have instruction_eq (word : Word) :
      (machine.withWord word).cycleInfo.instruction = .decode word :=
    machine.instruction_withWord word
  rw [StepInfo.storesNothing, StepInfo.storesNothing, instruction_eq, instruction_eq]
  rcases same with decode_eq | ⟨fields, source, found, found', -⟩
  · rw [decode_eq]
  · rw [found, found']

theorem closesLoop_eq :
    (machine.withWord first).cycleInfo.closesLoop (machine.withWord first).rom =
      (machine.withWord second).cycleInfo.closesLoop (machine.withWord second).rom := by
  have jumps_eq : (machine.withWord first).cycleInfo.jumps =
      (machine.withWord second).cycleInfo.jumps := by
    rw [cycleInfo_jumps, cycleInfo_jumps]
    exact (machine.evaluation_agrees same).jump_eq
  have pc_eq (word : Word) : (machine.withWord word).cycleInfo.pc = machine.cpu.pc := rfl
  have target_eq (word : Word) :
      (machine.withWord word).cycleInfo.outputs.addressM = machine.cpu.addressM :=
    cycleInfo_addressM
  simp only [StepInfo.closesLoop, jumps_eq, machine.storesNothing_eq same, pc_eq, target_eq]
  by_cases here : machine.cpu.addressM = machine.cpu.pc
  · simp only [here, beq_self_eq_true, Bool.true_or]
  by_cases before : Word.low15 (machine.cpu.addressM + 1) = machine.cpu.pc
  · -- The loop begins in front of the exchanged word.
    have elsewhere : machine.cpu.addressM.low15 ≠ machine.cpu.pc.low15 := by
      rw [addressM_low15, ← before, Word.low15_low15, before]
      exact here
    simp only [withWord, Rom.fetch_put, if_neg elsewhere]
  · simp only [beq_eq_false_iff_ne.2 before, Bool.false_and]

end Words

/-- The machines agree in everything but program memory and the last cycle. -/
structure Alike (first second : Machine) : Prop where
  cpu_eq : first.cpu = second.cpu
  memory_eq : first.memory = second.memory
  state_eq : first.state = second.state
  cycles_eq : first.cycles = second.cycles
  resetLine_eq : first.resetLine = second.resetLine
  haltDetection_eq : first.haltDetection = second.haltDetection

/-- Two cycles have the same outcome, whichever words they executed: both fail for
the same reason, or both drive the same outputs, and the machines after them are
alike. -/
def SameCycle : Except MachineError StepInfo × Machine → Except MachineError StepInfo × Machine →
    Prop
  | (.error error, after), (.error error', after') => error = error' ∧ after.Alike after'
  | (.ok info, after), (.ok info', after') =>
    info.pc = info'.pc ∧ info.outputs = info'.outputs ∧ after.Alike after'
  | (.error _, _), (.ok _, _) => False
  | (.ok _, _), (.error _, _) => False

/-- The cycle tells two words apart that share a text: one of them takes its second
operand from memory and the other does not, and either memory forbids it and is not
written anyway, or the operand is the keyboard, in a loop that halts a running
machine if nothing looks there. -/
def TellsApart (first second : Word) : Prop :=
  (Instruction.decode first).readsMemory ≠ (Instruction.decode second).readsMemory ∧
    (machine.memory.Traps machine.cpu.addressM ∧
        (Instruction.decode first).writesMemory = false ∨
      Location.decode machine.cpu.addressM = .keyboard ∧ machine.state = .running ∧
        machine.haltDetection = true ∧ machine.resetLine = false ∧
          (machine.withWord first).cycleInfo.closesLoop (machine.withWord first).rom = true)

/-- Cycles that fail do so at the same address, which no word determines. -/
theorem sameCycle_of_faults {first second : Word} (faults : (machine.withWord first).Faults)
    (faults' : (machine.withWord second).Faults) :
    SameCycle (machine.withWord first).step (machine.withWord second).step := by
  rw [step_of_faults _ faults, step_of_faults _ faults']
  exact ⟨rfl, rfl, rfl, rfl, rfl, rfl, rfl⟩

theorem SameCycle.faults_iff {first second : Machine} (same : SameCycle first.step second.step) :
    first.Faults ↔ second.Faults := by
  by_cases faults : first.Faults <;> by_cases faults' : second.Faults
  · exact iff_of_true faults faults'
  · rw [step_of_faults _ faults, step_of_not_faults _ faults'] at same
    exact same.elim
  · rw [step_of_not_faults _ faults, step_of_faults _ faults'] at same
    exact same.elim
  · exact iff_of_false faults faults'

theorem entersIdleLoop_withWord (word : Word) :
    (machine.withWord word).cycleInfo.entersIdleLoop (machine.withWord word).rom =
      ((machine.withWord word).cycleInfo.closesLoop (machine.withWord word).rom &&
        !((Instruction.decode word).readsMemory &&
          Location.decode machine.cpu.addressM == .keyboard)) := by
  have instruction_eq : (machine.withWord word).cycleInfo.instruction = .decode word :=
    machine.instruction_withWord word
  rw [StepInfo.entersIdleLoop_eq, StepInfo.readsKeyboard, instruction_eq, cycleInfo_addressM]
  rfl

section Outcomes

variable {first second : Word} (same : SameBarHidden (.decode first) (.decode second))
include same

theorem cycleInfo_outputs_eq :
    (machine.withWord first).cycleInfo.outputs = (machine.withWord second).cycleInfo.outputs := by
  have agrees := machine.evaluation_agrees same
  exact (Cpu.outputs_congr agrees _).trans
    (congrArg (Cpu.outputs _ ·.pc) (Cpu.commit_congr agrees machine.resetLine))

/-- Two cycles that succeed can only differ in the run state. -/
theorem next_alike_but_state :
    (machine.withWord first).next.Alike
      { (machine.withWord second).next with state := (machine.withWord first).next.state } where
  cpu_eq := Cpu.commit_congr (machine.evaluation_agrees same) machine.resetLine
  memory_eq := by
    simp only [next, instruction_withWord, (machine.evaluation_agrees same).outM_eq,
      writesMemory_eq same]
    rfl
  state_eq := rfl
  cycles_eq := rfl
  resetLine_eq := rfl
  haltDetection_eq := rfl

theorem sameCycle_iff_state_eq (allowed : ¬(machine.withWord first).Faults)
    (allowed' : ¬(machine.withWord second).Faults) :
    SameCycle (machine.withWord first).step (machine.withWord second).step ↔
      (machine.withWord first).next.state = (machine.withWord second).next.state := by
  rw [step_of_not_faults _ allowed, step_of_not_faults _ allowed']
  constructor
  · rintro ⟨-, -, alike⟩
    exact alike.state_eq
  · intro state_eq
    have alike := machine.next_alike_but_state same
    rw [state_eq] at alike
    exact ⟨rfl, machine.cycleInfo_outputs_eq same, alike⟩

/-- Only a look at the keyboard makes a difference to the run state. -/
theorem next_state_eq_iff :
    (machine.withWord first).next.state = (machine.withWord second).next.state ↔
      ¬((Instruction.decode first).readsMemory ≠ (Instruction.decode second).readsMemory ∧
        Location.decode machine.cpu.addressM = .keyboard ∧ machine.state = .running ∧
          machine.haltDetection = true ∧ machine.resetLine = false ∧
            (machine.withWord first).cycleInfo.closesLoop (machine.withWord first).rom = true) := by
  have state_eq (word : Word) : (machine.withWord word).next.state =
      if machine.resetLine then .running
      else if machine.haltDetection &&
          (machine.withWord word).cycleInfo.entersIdleLoop (machine.withWord word).rom then .halted
      else machine.state := rfl
  rw [state_eq, state_eq, entersIdleLoop_withWord, entersIdleLoop_withWord,
    ← machine.closesLoop_eq same]
  cases machine.resetLine with
  | true => simp
  | false =>
      cases machine.haltDetection with
      | false => simp
      | true =>
          cases (machine.withWord first).cycleInfo.closesLoop (machine.withWord first).rom with
          | false => simp
          | true =>
              by_cases looks : Location.decode machine.cpu.addressM = .keyboard
              · cases (Instruction.decode first).readsMemory <;>
                  cases (Instruction.decode second).readsMemory <;>
                    cases machine.state <;> simp [looks]
              · simp [looks]

/-- Where memory forbids the access, all depends on which of the words make one. -/
theorem sameCycle_iff_of_traps (traps : machine.memory.Traps machine.cpu.addressM) :
    SameCycle (machine.withWord first).step (machine.withWord second).step ↔
      ¬machine.TellsApart first second := by
  have not_keyboard : Location.decode machine.cpu.addressM ≠ .keyboard := by
    intro looks
    exact Nat.ne_of_gt traps.2 (Location.decode_eq_keyboard_iff.1 looks)
  have sameCycle_iff : SameCycle (machine.withWord first).step (machine.withWord second).step ↔
      ((machine.withWord first).Faults ↔ (machine.withWord second).Faults) := by
    constructor
    · exact SameCycle.faults_iff
    · intro faults_iff
      by_cases faults : (machine.withWord first).Faults
      · exact machine.sameCycle_of_faults faults (faults_iff.1 faults)
      · rw [machine.sameCycle_iff_state_eq same faults (mt faults_iff.2 faults),
          machine.next_state_eq_iff same]
        rintro ⟨-, looks, -⟩
        exact not_keyboard looks
  rw [sameCycle_iff, faults_withWord_iff, faults_withWord_iff, Instruction.usesMemory,
    Instruction.usesMemory, ← writesMemory_eq same]
  simp only [TellsApart, traps, not_keyboard, true_and, false_and, or_false]
  cases (Instruction.decode first).readsMemory <;>
    cases (Instruction.decode second).readsMemory <;>
      cases (Instruction.decode first).writesMemory <;> simp

theorem sameCycle_iff_of_not_traps (allowed : ¬machine.memory.Traps machine.cpu.addressM) :
    SameCycle (machine.withWord first).step (machine.withWord second).step ↔
      ¬machine.TellsApart first second := by
  have succeeds (word : Word) : ¬(machine.withWord word).Faults := by
    rw [faults_withWord_iff]
    exact fun faults => allowed faults.1
  rw [machine.sameCycle_iff_state_eq same (succeeds first) (succeeds second),
    machine.next_state_eq_iff same]
  simp only [TellsApart, allowed, false_and, false_or]

end Outcomes

/-- Words that share a text are the same instruction, or the same but for the source
of a second operand that the function does not have.  Executed from the same state,
in the same place, they have the same outcome exactly if the cycle does not tell
them apart; and if both succeed, then all but the run state is the same. -/
theorem sameCycle_iff_of_disassemble_eq (machine : Machine) {first second : Word}
    (same : disassemble first = disassemble second) :
    SameBarHidden (.decode first) (.decode second) ∧
      (SameCycle (machine.withWord first).step (machine.withWord second).step ↔
        ¬machine.TellsApart first second) ∧
      ∀ info info' after after', (machine.withWord first).step = (.ok info, after) →
        (machine.withWord second).step = (.ok info', after') →
          info.pc = info'.pc ∧ info.outputs = info'.outputs ∧
            after.Alike { after' with state := after.state } := by
  have bar_hidden := Assembly.disassemble_eq_iff.1 same
  refine ⟨bar_hidden, ?_, ?_⟩
  · by_cases traps : machine.memory.Traps machine.cpu.addressM
    · exact machine.sameCycle_iff_of_traps bar_hidden traps
    · exact machine.sameCycle_iff_of_not_traps bar_hidden traps
  · intro info info' after after' stepped stepped'
    obtain ⟨-, rfl, rfl⟩ := step_eq_ok_iff.1 stepped
    obtain ⟨-, rfl, rfl⟩ := step_eq_ok_iff.1 stepped'
    exact ⟨rfl, machine.cycleInfo_outputs_eq bar_hidden, machine.next_alike_but_state bar_hidden⟩

/-- Both words of the text `0;JMP` that set the unused bits jump to address 0 of a
new machine, and halt it there. -/
theorem sameCycle_jumps_of_new_machine :
    disassemble 0xEA87 = disassemble 0xFA87 ∧
      SameCycle ((ofConfig {}).withWord 0xEA87).step ((ofConfig {}).withWord 0xFA87).step := by
  have same : disassemble 0xEA87 = disassemble 0xFA87 := by
    decide +kernel
  refine ⟨same, ((ofConfig {}).sameCycle_iff_of_disassemble_eq same).2.1.2 ?_⟩
  rintro ⟨-, ⟨traps, -⟩ | ⟨looks, -⟩⟩
  · revert traps
    decide
  · revert looks
    decide

/-- A machine that forbids unmapped accesses, after the instruction `@24577`. -/
def atUnmapped : Machine :=
  ((ofConfig { unmapped := .fault }).withProgram [0x6001] (by decide)).step.2

/-- Of the two words of the text `0;JMP`, one fails at an unmapped address. -/
theorem not_sameCycle_jumps_at_unmapped :
    disassemble 0xEA87 = "0;JMP" ∧ disassemble 0xFA87 = "0;JMP" ∧
      (atUnmapped.withWord 0xEA87).step.1 = .ok (atUnmapped.withWord 0xEA87).cycleInfo ∧
      (atUnmapped.withWord 0xFA87).step.1 = .error (.memory (.unmappedAccess 0x6001)) ∧
      ¬SameCycle (atUnmapped.withWord 0xEA87).step (atUnmapped.withWord 0xFA87).step := by
  have allowed : ¬(atUnmapped.withWord 0xEA87).Faults := by
    decide +kernel
  have faults : (atUnmapped.withWord 0xFA87).Faults := by
    decide +kernel
  have address_eq : (atUnmapped.withWord 0xFA87).cpu.addressM = 0x6001 := by
    decide +kernel
  rw [step_of_not_faults _ allowed, step_of_faults _ faults, fault, address_eq]
  exact ⟨by decide +kernel, by decide +kernel, rfl, rfl, id⟩

end Machine

end HackComputer
