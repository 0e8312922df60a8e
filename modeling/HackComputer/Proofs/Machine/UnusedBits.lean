import HackComputer.Proofs.Instruction.UnusedBits
import HackComputer.Proofs.Machine.Lockstep
import HackComputer.Proofs.Machine.SharedText

/-!
# Programs that differ in unused bits

Everything that reads program memory decodes what it reads.  So machines whose
programs differ in unused bits at most do the same, cycle by cycle, and what is told
of a cycle differs at most in the raw word.
-/

namespace HackComputer

/-- The cycles are the same but for the raw word. -/
structure StepInfo.SameButWord (first second : StepInfo) : Prop where
  pc_eq : first.pc = second.pc
  instruction_eq : first.instruction = second.instruction
  outputs_eq : first.outputs = second.outputs

/-- The program memories differ at most in unused bits. -/
structure Rom.SameUsed (first second : Rom) : Prop where
  fetch : ∀ pc, (first.fetch pc).SameUsed (second.fetch pc)
  loaded_eq : first.loaded = second.loaded

theorem Word.sameUsed_getD {program program' : List Word}
    (used : List.Forall₂ Word.SameUsed program program') (index : Nat) :
    (program.getD index 0).SameUsed (program'.getD index 0) := by
  induction used generalizing index with
  | nil => exact Word.SameUsed.refl _
  | cons head _ inductionHypothesis =>
      cases index with
      | zero => exact head
      | succ index => exact inductionHypothesis index

theorem Rom.sameUsed_holding {program program' : List Word}
    (used : List.Forall₂ Word.SameUsed program program') (fits : program.length ≤ romSize)
    (fits' : program'.length ≤ romSize) :
    (holding program fits).SameUsed (holding program' fits') where
  fetch pc := by
    rw [fetch_holding, fetch_holding]
    exact Word.sameUsed_getD used _
  loaded_eq := used.length_eq

/-- Whether a cycle closes an idle loop is decided on decoded words. -/
theorem StepInfo.SameButWord.entersIdleLoop_eq {first second : StepInfo} {rom rom' : Rom}
    (same : first.SameButWord second) (used : rom.SameUsed rom') :
    first.entersIdleLoop rom = second.entersIdleLoop rom' := by
  have decode_eq (pc : Word) : Instruction.decode (rom.fetch pc) = .decode (rom'.fetch pc) :=
    Instruction.decode_eq_iff.2 (used.fetch pc)
  simp only [entersIdleLoop, jumps, storesNothing, readsKeyboard, same.pc_eq,
    same.instruction_eq, same.outputs_eq, decode_eq]

namespace Machine

/-- The machines are the same but for unused bits: of the programs, and of the word
that the last cycle executed. -/
structure SameButUnused (first second : Machine) : Prop where
  alike : first.Alike second
  rom : first.rom.SameUsed second.rom
  lastStep : Option.Rel StepInfo.SameButWord first.lastStep second.lastStep

namespace SameButUnused

variable {first second : Machine}

theorem instruction_eq (same : first.SameButUnused second) :
    first.instruction = second.instruction := by
  rw [instruction, instruction, same.alike.cpu_eq]
  exact Instruction.decode_eq_iff.2 (same.rom.fetch _)

theorem evaluation_eq (same : first.SameButUnused second) :
    first.evaluation = second.evaluation := by
  have inM_eq : first.inM = second.inM := by
    rw [inM, inM, same.instruction_eq, same.alike.memory_eq, same.alike.cpu_eq]
  have decode_eq := same.instruction_eq
  rw [instruction, instruction] at decode_eq
  rw [evaluation, evaluation, inM_eq, Cpu.evaluate, Cpu.evaluate, decode_eq, same.alike.cpu_eq]

theorem faults_iff (same : first.SameButUnused second) : first.Faults ↔ second.Faults := by
  rw [Faults, Faults, same.instruction_eq, same.alike.memory_eq, same.alike.cpu_eq]

theorem cycleInfo (same : first.SameButUnused second) :
    first.cycleInfo.SameButWord second.cycleInfo where
  pc_eq := congrArg Cpu.pc same.alike.cpu_eq
  instruction_eq := same.instruction_eq
  outputs_eq := by
    simp only [Machine.cycleInfo, same.evaluation_eq, same.alike.cpu_eq, same.alike.resetLine_eq]

theorem next (same : first.SameButUnused second) : first.next.SameButUnused second.next where
  alike :=
    { cpu_eq := by
        simp only [Machine.next, same.evaluation_eq, same.alike.cpu_eq, same.alike.resetLine_eq]
      memory_eq := by
        simp only [Machine.next, same.instruction_eq, same.evaluation_eq, same.alike.cpu_eq,
          same.alike.memory_eq]
      state_eq := by
        simp only [Machine.next, RunState.next, same.alike.state_eq, same.alike.resetLine_eq,
          same.alike.haltDetection_eq, same.cycleInfo.entersIdleLoop_eq same.rom]
      cycles_eq := congrArg (· + 1) same.alike.cycles_eq
      resetLine_eq := same.alike.resetLine_eq
      haltDetection_eq := same.alike.haltDetection_eq }
  rom := same.rom
  lastStep := .some same.cycleInfo

theorem load (same : first.SameButUnused second) {program program' : List Word}
    (used : List.Forall₂ Word.SameUsed program program') :
    (first.load program).1 = (second.load program').1 ∧
      (first.load program).2.SameButUnused (second.load program').2 := by
  have length_eq := used.length_eq
  by_cases fits : program.length ≤ romSize
  · have fits' : program'.length ≤ romSize := length_eq ▸ fits
    rw [first.load_of_fits fits, second.load_of_fits fits']
    refine ⟨rfl, ?_, Rom.sameUsed_holding used fits fits', .none⟩
    exact
      { cpu_eq := congrArg (Cpu.setPc · 0) same.alike.cpu_eq
        memory_eq := same.alike.memory_eq
        state_eq := rfl
        cycles_eq := rfl
        resetLine_eq := same.alike.resetLine_eq
        haltDetection_eq := same.alike.haltDetection_eq }
  · have large : ¬program'.length ≤ romSize := length_eq ▸ fits
    rw [first.load_of_not_fits fits, second.load_of_not_fits large, length_eq]
    exact ⟨rfl, same⟩

theorem respond (same : first.SameButUnused second) {stimulus : Stimulus}
    (unclocked : (Operation.stimulus stimulus).isClocked = false) :
    (first.respond stimulus).1 = (second.respond stimulus).1 ∧
      (first.respond stimulus).2.SameButUnused (second.respond stimulus).2 := by
  have ⟨⟨cpu_eq, memory_eq, state_eq, cycles_eq, resetLine_eq, haltDetection_eq⟩, rom, last⟩ := same
  cases stimulus with
  | step => contradiction
  | setKeyboard key =>
      exact ⟨rfl, ⟨cpu_eq, congrArg (Memory.setKeyboard · key) memory_eq, state_eq, cycles_eq,
        resetLine_eq, haltDetection_eq⟩, rom, last⟩
  | setReset asserted =>
      exact ⟨rfl, ⟨cpu_eq, memory_eq, state_eq, cycles_eq, rfl, haltDetection_eq⟩, rom, last⟩
  | poke address value =>
      have poked : first.memory.poke address value = second.memory.poke address value :=
        congrArg (Memory.poke · address value) memory_eq
      rw [Machine.respond, Machine.respond, poke, poke, poked]
      exact ⟨rfl, ⟨cpu_eq, rfl, state_eq, cycles_eq, resetLine_eq, haltDetection_eq⟩, rom, last⟩
  | reset =>
      exact ⟨rfl, ⟨congrArg (Cpu.setPc · 0) cpu_eq, memory_eq, rfl, cycles_eq, rfl,
        haltDetection_eq⟩, rom, .none⟩

theorem refl (machine : Machine) : machine.SameButUnused machine where
  alike := ⟨rfl, rfl, rfl, rfl, rfl, rfl⟩
  rom := ⟨fun _ => .refl _, rfl⟩
  lastStep := by
    cases machine.lastStep with
    | none => exact .none
    | some info => exact .some ⟨rfl, rfl, rfl⟩

end SameButUnused

theorem lockstep_sameButUnused :
    Lockstep SameButUnused StepInfo.SameButWord (fun _ => True) where
  state_eq same := same.alike.state_eq
  cycles_eq same := same.alike.cycles_eq
  faults_iff same := same.faults_iff
  fault_eq same := by rw [fault, fault, same.alike.cpu_eq]
  cycleInfo same _ := same.cycleInfo
  next same _ := same.next
  unclocked := by
    intro first second operation same unclocked
    cases operation with
    | run budget => contradiction
    | load program => exact same.load (List.forall₂_same.2 fun word _ => .refl word)
    | stimulus stimulus => exact same.respond unclocked

/-- Programs that differ in unused bits at most, as a program does from its words
decoded and encoded again, are loaded with the same outcome.  From then on, whatever
is done to the machine, the outcomes are the same and the machines agree in
everything but these bits and the raw words of cycles. -/
theorem unused_bits_never_matter (machine : Machine) :
    (∀ program : List Word, List.Forall₂ Word.SameUsed program
      (program.map fun word => Instruction.encode (.decode word))) ∧
    ∀ program program' : List Word, List.Forall₂ Word.SameUsed program program' →
      (machine.load program).1 = (machine.load program').1 ∧
        (machine.load program).2.SameButUnused (machine.load program').2 ∧
        ∀ operations : List Operation,
          List.Forall₂
            (fun here there => here.1.Same StepInfo.SameButWord there.1 ∧
              here.2.SameButUnused there.2)
            ((machine.load program).2.trace operations)
            ((machine.load program').2.trace operations) := by
  constructor
  · intro program
    rw [List.forall₂_map_right_iff, List.forall₂_same]
    intro word _
    exact Instruction.sameUsed_encode_decode word
  · intro program program' used
    obtain ⟨report_eq, loaded⟩ := (SameButUnused.refl machine).load used
    refine ⟨report_eq, loaded, fun operations => lockstep_sameButUnused.trace loaded ?_⟩
    intro occurrence _
    cases occurrence <;> exact trivial

/-- A machine with the address instruction `@1` and then the word `jump`. -/
def loopingBy (jump : Word) : Machine :=
  (ofConfig {}).withProgram [0x0001, jump] (show 2 ≤ romSize by decide)

theorem load_loopingBy (jump : Word) :
    (ofConfig {}).load [0x0001, jump] = (.ok (), loopingBy jump) :=
  load_of_fits _ _

/-- The jump `D;JEQ` halts the machine, with its unused bits clear as with these bits
set. -/
theorem unused_bits_of_jump :
    List.Forall₂ Word.SameUsed [0x0001, 0xE302] [0x0001, 0x8302] ∧
      (loopingBy 0xE302).outcome (.run 50) = .ok (.cycles 2) ∧
      List.Forall₂
        (fun here there => here.1.Same StepInfo.SameButWord there.1 ∧
          here.2.SameButUnused there.2)
        ((loopingBy 0xE302).trace [.run 50, .stimulus .step])
        ((loopingBy 0x8302).trace [.run 50, .stimulus .step]) := by
  have used : List.Forall₂ Word.SameUsed [0x0001, 0xE302] [0x0001, 0x8302] :=
    .cons (.refl _) (.cons (Instruction.decode_eq_iff.1 (by decide)) .nil)
  obtain ⟨-, -, traces⟩ := (unused_bits_never_matter (ofConfig {})).2 _ _ used
  rw [load_loopingBy, load_loopingBy] at traces
  have halts : (loopingBy 0xE302).outcome (.run 50) = .ok (.cycles 2) := by
    rw [outcome, run_eq]
    decide +kernel
  exact ⟨used, halts, traces _⟩

end Machine

end HackComputer
