import HackComputer.Proofs.Machine.Fault
import HackComputer.Proofs.Machine.Run
import HackComputer.Proofs.Memory.Program

/-!
# Idle loops

A machine is marked halted by the cycle that closes an idle loop: a jump that
stores nothing and lands on itself, or on an instruction just before it that
loads its target.  Such a loop goes round for ever if the jump recurs.  It always
does when it lands on itself or takes its operand from memory.  On the longer
way round, A loses bit 15: the instruction before the jump loads fifteen bits.
A jump that is taken on A with bit 15 set need not be taken on A without it, and
then the program leaves a loop that it was marked halted in.
-/

namespace HackComputer

/-- Is the jump of a cycle that closed an idle loop, with `d` in D, taken again
when the loop comes back to it? -/
def StepInfo.Recurs (info : StepInfo) (d : Word) : Prop :=
  info.outputs.addressM = info.pc ∨
    ∃ fields, info.instruction = .compute fields ∧
      (fields.ySource = .memory ∨
        fields.jumpsOn (fields.result d info.outputs.addressM) = true)

theorem StepInfo.entersIdleLoop_eq_true_iff {info : StepInfo} {rom : Rom} :
    info.entersIdleLoop rom = true ↔
      info.jumps = true ∧ info.storesNothing = true ∧ info.readsKeyboard = false ∧
        (info.outputs.addressM = info.pc ∨
          Word.low15 (info.outputs.addressM + 1) = info.pc ∧
            Instruction.decode (rom.fetch info.outputs.addressM) =
              .address info.outputs.addressM) := by
  simp [entersIdleLoop, and_assoc]

/-- Away from the keyboard, the words of a memory are those of RAM and screen. -/
theorem Memory.word_congr {memory other : Memory} {address : Word}
    (ram_eq : other.ram = memory.ram) (screen_eq : other.screen = memory.screen)
    (not_keyboard : Location.decode address ≠ .keyboard) :
    other.word address = memory.word address := by
  simp only [word]
  cases found : Location.decode address with
  | ram index => rw [ram_eq]
  | screen offset => rw [screen_eq]
  | keyboard => exact absurd found not_keyboard
  | unmapped low => rfl

namespace Machine

/-- Driven by the clock and the keyboard alone, the machine never fails, keeps
the program counter at one of two addresses, and never changes D, RAM or the
screen. -/
def Idles (machine : Machine) (target pc : Word) : Prop :=
  ∀ stimuli : List Stimulus, (∀ stimulus ∈ stimuli, stimulus.isClockOrKey = true) →
    List.Forall₂ (fun _ report => report = .ok ()) stimuli (machine.drive stimuli).1 ∧
      ((machine.drive stimuli).2.cpu.pc = target ∨ (machine.drive stimuli).2.cpu.pc = pc) ∧
      (machine.drive stimuli).2.cpu.d = machine.cpu.d ∧
      (machine.drive stimuli).2.memory.ram = machine.memory.ram ∧
      (machine.drive stimuli).2.memory.screen = machine.memory.screen

/-! ## The cycle that closes a loop -/

/-- The next cycle of the machine closes an idle loop by the jump `fields`. -/
structure ClosesLoop (start : Machine) (fields : Compute) : Prop where
  instruction_eq : start.instruction = .compute fields
  allowed : ¬start.Faults
  dest_eq : fields.dest = ⟨false, false, false⟩
  taken : fields.jumpsOn (start.out fields) = true
  not_keyboard : fields.ySource = .memory → Location.decode start.cpu.addressM ≠ .keyboard
  lands : start.cpu.addressM = start.cpu.pc ∨
    Word.low15 (start.cpu.addressM + 1) = start.cpu.pc ∧
      Instruction.decode (start.rom.fetch start.cpu.addressM) = .address start.cpu.addressM

theorem closesLoop_of_entersIdleLoop {start after : Machine} {info : StepInfo}
    (stepped : start.step = (.ok info, after)) (idle : info.entersIdleLoop start.rom = true) :
    ∃ fields, start.ClosesLoop fields := by
  obtain ⟨allowed, rfl, -⟩ := step_eq_ok_iff.1 stepped
  obtain ⟨jumps, stores, reads, lands⟩ := StepInfo.entersIdleLoop_eq_true_iff.1 idle
  cases found : start.instruction with
  | address literal =>
      rw [StepInfo.jumps, show start.cycleInfo.instruction = _ from found] at jumps
      contradiction
  | compute fields =>
      refine ⟨fields, found, allowed, ?_, ?_, ?_, ?_⟩
      · rcases fields with ⟨source, flags, ⟨a, d, m⟩, jump⟩
        rw [StepInfo.storesNothing, show start.cycleInfo.instruction = _ from found] at stores
        simpa [Dest.isEmpty, and_assoc] using stores
      · rw [← cycleInfo_jumps_of_compute found]
        exact jumps
      · intro from_memory is_keyboard
        rw [StepInfo.readsKeyboard, show start.cycleInfo.instruction = _ from found,
          cycleInfo_addressM, is_keyboard] at reads
        simp [Instruction.readsMemory, from_memory] at reads
      · rw [cycleInfo_addressM] at lands
        exact lands

/-! ## Going round -/

/-- The machine `other` differs from `start` in A, the program counter, the
keyboard and the bookkeeping at most, and its reset line is released. -/
structure Frozen (start other : Machine) : Prop where
  rom_eq : other.rom = start.rom
  d_eq : other.cpu.d = start.cpu.d
  ram_eq : other.memory.ram = start.memory.ram
  screen_eq : other.memory.screen = start.memory.screen
  unmapped_eq : other.memory.unmapped = start.memory.unmapped
  released : other.resetLine = false

/-- The result of the closing jump when A holds `a`. -/
def loopOut (start : Machine) (fields : Compute) (a : Word) : Word :=
  fields.result start.cpu.d (fields.operand a (start.memory.word start.cpu.addressM))

variable {start machine : Machine} {fields : Compute}

theorem Frozen.setKeyboard (frozen : start.Frozen machine) (key : Word) :
    start.Frozen (machine.setKeyboard key) :=
  ⟨frozen.rom_eq, frozen.d_eq, frozen.ram_eq, frozen.screen_eq, frozen.unmapped_eq,
    frozen.released⟩

/-- A cycle that leaves D and memory alone keeps a machine frozen. -/
theorem Frozen.next (frozen : start.Frozen machine) (d_eq : machine.next.cpu.d = machine.cpu.d)
    (memory_eq : machine.next.memory = machine.memory) : start.Frozen machine.next where
  rom_eq := frozen.rom_eq
  d_eq := d_eq.trans frozen.d_eq
  ram_eq := by rw [memory_eq, frozen.ram_eq]
  screen_eq := by rw [memory_eq, frozen.screen_eq]
  unmapped_eq := by rw [memory_eq, frozen.unmapped_eq]
  released := frozen.released

/-- The closing jump, come to with `start`'s address in A, gives what it gives on
`start`: it sees nothing that has changed. -/
theorem ClosesLoop.out_eq (closes : start.ClosesLoop fields) (frozen : start.Frozen machine)
    (address_eq : machine.cpu.addressM = start.cpu.addressM) :
    machine.out fields = start.loopOut fields machine.cpu.a := by
  have operand_eq : fields.operand machine.cpu.a (machine.memory.word start.cpu.addressM) =
      fields.operand machine.cpu.a (start.memory.word start.cpu.addressM) := by
    cases source : fields.ySource with
    | register => simp only [Compute.operand, source]
    | memory =>
        simp only [Compute.operand, source]
        exact Memory.word_congr frozen.ram_eq frozen.screen_eq (closes.not_keyboard source)
  rw [out, loopOut, frozen.d_eq, address_eq, operand_eq]

/-- The cycle of the closing jump itself. -/
theorem ClosesLoop.next_of_atJump (closes : start.ClosesLoop fields)
    (frozen : start.Frozen machine) (pc_eq : machine.cpu.pc = start.cpu.pc)
    (address_eq : machine.cpu.addressM = start.cpu.addressM) :
    ¬machine.Faults ∧ start.Frozen machine.next ∧ machine.next.cpu.a = machine.cpu.a ∧
      machine.next.cpu.pc =
        (if fields.jumpsOn (start.loopOut fields machine.cpu.a) then start.cpu.addressM
          else Word.low15 (start.cpu.pc + 1)) := by
  have instruction_eq : machine.instruction = .compute fields := by
    rw [instruction, frozen.rom_eq, pc_eq]
    exact closes.instruction_eq
  obtain ⟨a_next, d_next, pc_next, memory_next⟩ := next_of_compute instruction_eq
  rw [closes.dest_eq] at a_next d_next memory_next
  rw [frozen.released, closes.out_eq frozen address_eq, address_eq, pc_eq] at pc_next
  refine ⟨?_, frozen.next d_next memory_next, a_next, pc_next⟩
  rintro ⟨⟨policy, above⟩, uses⟩
  refine closes.allowed ⟨⟨frozen.unmapped_eq ▸ policy, address_eq ▸ above⟩, ?_⟩
  rw [closes.instruction_eq, ← instruction_eq]
  exact uses

/-- The cycle in front of the closing jump, on the longer way round. -/
theorem ClosesLoop.next_of_atTarget (closes : start.ClosesLoop fields)
    (frozen : start.Frozen machine) (pc_eq : machine.cpu.pc = start.cpu.addressM)
    (elsewhere : start.cpu.addressM ≠ start.cpu.pc) :
    ¬machine.Faults ∧ start.Frozen machine.next ∧ machine.next.cpu.a = start.cpu.addressM ∧
      machine.next.cpu.pc = start.cpu.pc := by
  obtain ⟨pc_succ, target_eq⟩ := closes.lands.resolve_left elsewhere
  have instruction_eq : machine.instruction = .address start.cpu.addressM := by
    rw [instruction, frozen.rom_eq, pc_eq]
    exact target_eq
  obtain ⟨a_next, d_next, pc_next, memory_next⟩ := next_of_address instruction_eq
  rw [frozen.released, pc_eq, pc_succ] at pc_next
  exact ⟨not_faults_of_address instruction_eq, frozen.next d_next memory_next, a_next, pc_next⟩

/-- The jump is taken again when the loop comes back to it. -/
def JumpRecurs (start : Machine) (fields : Compute) : Prop :=
  start.cpu.addressM = start.cpu.pc ∨
    fields.jumpsOn (start.loopOut fields start.cpu.addressM) = true

/-- The machine is on its way round the loop: at the jump, which it will take, or
in front of it. -/
structure Circles (start : Machine) (fields : Compute) (machine : Machine) : Prop where
  frozen : start.Frozen machine
  place :
    (machine.cpu.pc = start.cpu.pc ∧ machine.cpu.addressM = start.cpu.addressM ∧
        fields.jumpsOn (start.loopOut fields machine.cpu.a) = true) ∨
      machine.cpu.pc = start.cpu.addressM ∧ start.cpu.addressM ≠ start.cpu.pc

theorem ClosesLoop.circles (closes : start.ClosesLoop fields) (released : start.resetLine = false) :
    start.Circles fields start :=
  ⟨⟨rfl, rfl, rfl, rfl, rfl, released⟩, .inl ⟨rfl, rfl, closes.taken⟩⟩

theorem Circles.setKeyboard (circles : start.Circles fields machine) (key : Word) :
    start.Circles fields (machine.setKeyboard key) :=
  ⟨circles.frozen.setKeyboard key, circles.place⟩

/-- A cycle of a machine on its way round succeeds; if the jump recurs, it stays
on its way. -/
theorem Circles.next (circles : start.Circles fields machine) (closes : start.ClosesLoop fields)
    (recurs : start.JumpRecurs fields) :
    ¬machine.Faults ∧ start.Circles fields machine.next := by
  rcases circles.place with ⟨pc_eq, address_eq, taken⟩ | ⟨pc_eq, elsewhere⟩
  · obtain ⟨allowed, frozen, a_next, pc_next⟩ :=
      closes.next_of_atJump circles.frozen pc_eq address_eq
    rw [if_pos taken] at pc_next
    refine ⟨allowed, frozen, ?_⟩
    by_cases self : start.cpu.addressM = start.cpu.pc
    · left
      refine ⟨pc_next.trans self, ?_, a_next.symm ▸ taken⟩
      rw [Cpu.addressM, a_next]
      exact address_eq
    · exact .inr ⟨pc_next, self⟩
  · obtain ⟨allowed, frozen, a_next, pc_next⟩ :=
      closes.next_of_atTarget circles.frozen pc_eq elsewhere
    refine ⟨allowed, frozen, .inl ⟨pc_next, ?_, ?_⟩⟩
    · rw [Cpu.addressM, a_next]
      exact start.addressM_low15
    · rw [a_next]
      exact recurs.resolve_left elsewhere

/-- A loop whose jump recurs goes round for ever. -/
theorem Circles.idles (circles : start.Circles fields machine) (closes : start.ClosesLoop fields)
    (recurs : start.JumpRecurs fields) : machine.Idles start.cpu.addressM start.cpu.pc := by
  intro stimuli undisturbed
  have kept : ∀ other, start.Circles fields other → ∀ stimulus ∈ stimuli,
      start.Circles fields (other.respond stimulus).2 ∧ (other.respond stimulus).1 = .ok () := by
    intro other circles stimulus member
    cases stimulus with
    | step =>
        obtain ⟨allowed, circles_next⟩ := circles.next closes recurs
        rw [respond, step_of_not_faults other allowed]
        exact ⟨circles_next, rfl⟩
    | setKeyboard key => exact ⟨circles.setKeyboard key, rfl⟩
    | setReset asserted => exact absurd (undisturbed _ member) Bool.false_ne_true
    | poke address value => exact absurd (undisturbed _ member) Bool.false_ne_true
    | reset => exact absurd (undisturbed _ member) Bool.false_ne_true
  obtain ⟨last, reports⟩ := Stimulus.drive_preserves (start.Circles fields)
    (fun _ report => report = .ok ()) kept circles
  refine ⟨reports, ?_, ?_, ?_, ?_⟩
  · rcases last.place with ⟨pc_eq, -⟩ | ⟨pc_eq, -⟩
    · exact .inr pc_eq
    · exact .inl pc_eq
  · exact last.frozen.d_eq.trans circles.frozen.d_eq.symm
  · exact last.frozen.ram_eq.trans circles.frozen.ram_eq.symm
  · exact last.frozen.screen_eq.trans circles.frozen.screen_eq.symm

/-- A loop whose jump does not recur is left after two more cycles. -/
theorem ClosesLoop.jumpRecurs_of_idles (closes : start.ClosesLoop fields)
    (released : start.resetLine = false)
    (idles : start.next.Idles start.cpu.addressM start.cpu.pc) : start.JumpRecurs fields := by
  by_contra no_recurrence
  obtain ⟨elsewhere, not_taken⟩ := not_or.1 no_recurrence
  obtain ⟨-, frozen, -, pc_eq⟩ := closes.next_of_atJump (closes.circles released).frozen rfl rfl
  obtain ⟨allowed, frozen, a_eq, pc_eq⟩ :=
    closes.next_of_atTarget frozen (pc_eq.trans (if_pos closes.taken)) elsewhere
  have address_eq : start.next.next.cpu.addressM = start.cpu.addressM := by
    rw [Cpu.addressM, a_eq, addressM_low15]
  obtain ⟨allowed', -, -, pc_eq'⟩ := closes.next_of_atJump frozen pc_eq address_eq
  rw [a_eq, if_neg not_taken] at pc_eq'
  have driven : (start.next.drive [.step, .step]).2 = start.next.next.next := by
    simp only [drive, Stimulus.drive, respond, step_of_not_faults _ allowed,
      step_of_not_faults _ allowed']
  obtain ⟨-, place, -⟩ := idles [.step, .step] (by simp [Stimulus.isClockOrKey])
  rw [driven, pc_eq', ← (closes.lands.resolve_left elsewhere).1] at place
  -- The address behind the jump is neither the jump's nor the one in front of it.
  have target_small : start.cpu.addressM.toNat < 0x8000 := Word.toNat_low15_lt start.cpu.a
  rcases place with place | place
  all_goals
    have place := congrArg BitVec.toNat place
    simp only [Word.toNat_low15_succ] at place
    omega

/-! ## Which idle loops are idle -/

/-- What recurs is told by the cycle that closed the loop. -/
theorem ClosesLoop.recurs_iff (closes : start.ClosesLoop fields) :
    start.cycleInfo.Recurs start.cpu.d ↔ start.JumpRecurs fields := by
  have instruction_eq : start.cycleInfo.instruction = .compute fields := closes.instruction_eq
  rw [StepInfo.Recurs, JumpRecurs, instruction_eq, cycleInfo_addressM]
  apply or_congr_right
  have taken := closes.taken
  constructor
  · rintro ⟨fields', same, recurs⟩
    obtain rfl := Instruction.compute.inj same
    cases source : fields.ySource with
    | register =>
        rw [source] at recurs
        simpa only [loopOut, Compute.operand, source] using recurs.resolve_left (by simp)
    | memory => simpa only [loopOut, out, Compute.operand, source] using taken
  · intro recurs
    refine ⟨fields, rfl, ?_⟩
    cases source : fields.ySource with
    | register => exact .inr (by simpa only [loopOut, Compute.operand, source] using recurs)
    | memory => exact .inl rfl

/-- An address with bit 15 clear loses nothing on the way round. -/
theorem ClosesLoop.jumpRecurs_of_small (closes : start.ClosesLoop fields)
    (small : start.cpu.a.toNat < 0x8000) : start.JumpRecurs fields := by
  right
  rw [Cpu.addressM, Word.low15_eq_self_iff.2 small]
  exact closes.taken

/-- A cycle that closes an idle loop marks the machine halted.  From then on the
machine idles, whatever keys are pressed, exactly if the jump of that cycle
recurs, as it does whenever bit 15 of A is clear. -/
theorem idles_iff_recurs {machine after : Machine} {info : StepInfo}
    (stepped : machine.step = (.ok info, after)) (detecting : machine.haltDetection = true)
    (released : machine.resetLine = false) (idle : info.entersIdleLoop machine.rom = true) :
    after.state = .halted ∧
      (after.Idles info.outputs.addressM info.pc ↔ info.Recurs machine.cpu.d) ∧
      (machine.cpu.a.toNat < 0x8000 → info.Recurs machine.cpu.d) := by
  obtain ⟨fields, closes⟩ := closesLoop_of_entersIdleLoop stepped idle
  obtain ⟨-, rfl, rfl⟩ := step_eq_ok_iff.1 stepped
  rw [closes.recurs_iff, cycleInfo_addressM]
  constructor
  · simp only [next, RunState.next, released, detecting, idle, Bool.true_and, if_true, if_false,
      Bool.false_eq_true]
  constructor
  · constructor
    · exact closes.jumpRecurs_of_idles released
    · intro recurs
      exact ((closes.circles released).next closes recurs).2.idles closes recurs
  · exact closes.jumpRecurs_of_small

/-- A new machine with a program loaded. -/
def ofProgram (program : List Word) (fits : program.length ≤ romSize) : Machine :=
  (ofConfig {}).withProgram program fits

/-- A machine whose program ends at once: `@0, 0;JMP`. -/
def ending : Machine :=
  ofProgram [0x0000, 0xEA87] (by decide)

/-- The loop at the end of a program idles once it is closed. -/
theorem idles_after_ending :
    ∃ machine info after,
      ending.afterCycles? 1 = some machine ∧ machine.step = (.ok info, after) ∧
        machine.haltDetection = true ∧ machine.resetLine = false ∧
        info.entersIdleLoop machine.rom = true ∧ after.Idles 0 1 := by
  have first : ending.step = (.ok ending.cycleInfo, ending.next) := step_of_ignore rfl
  have second : ending.next.step = (.ok ending.next.cycleInfo, ending.next.next) :=
    step_of_ignore unmapped_next
  have idle : ending.next.cycleInfo.entersIdleLoop ending.next.rom = true := by
    decide +kernel
  have small : ending.next.cpu.a.toNat < 0x8000 := by
    decide +kernel
  obtain ⟨-, idles_iff, recurs⟩ := idles_iff_recurs second rfl rfl idle
  exact ⟨_, _, _, afterCycles?_succ_of_step first 0, second, rfl, rfl, idle,
    idles_iff.2 (recurs small)⟩

/-- The program `@32763, A=!A, A=A-1;JMP, @3, A;JLT, M=1, @6, 0;JMP`.  It comes to
the jump at address 4 with bit 15 of A set, and back to it with bit 15 clear. -/
def escapingProgram : List Word :=
  [0x7FFB, 0xEC60, 0xECA7, 0x0003, 0xEC04, 0xEFC8, 0x0006, 0xEA87]

/-- A machine whose program leaves a loop that it is marked halted in. -/
def escaping : Machine :=
  ofProgram escapingProgram (by decide)

/-- A run of `escapingProgram` stops in a loop that the program leaves two cycles
later, to store a word. -/
theorem not_idles_escaping :
    ∃ machine info after,
      (ofConfig {}).load escapingProgram = (.ok (), escaping) ∧ (escaping.run 100).1 = .ok 4 ∧
        escaping.afterCycles? 3 = some machine ∧ machine.step = (.ok info, after) ∧
        machine.haltDetection = true ∧ machine.resetLine = false ∧
        info.entersIdleLoop machine.rom = true ∧ after.state = .halted ∧
        ¬after.Idles info.outputs.addressM info.pc ∧
        after.memory.word 3 = 0 ∧ (after.drive [.step, .step, .step]).2.memory.word 3 = 1 := by
  have first : escaping.step = (.ok _, escaping.next) := step_of_ignore rfl
  have second : escaping.next.step = (.ok _, escaping.next.next) := step_of_ignore unmapped_next
  have third : escaping.next.next.step = (.ok _, escaping.next.next.next) :=
    step_of_ignore (unmapped_next.trans unmapped_next)
  have reached : escaping.afterCycles? 3 = some escaping.next.next.next := by
    rw [afterCycles?_succ_of_step first, afterCycles?_succ_of_step second,
      afterCycles?_succ_of_step third, afterCycles?]
  refine ⟨_, _, _, load_of_fits _ _, by rw [run_eq]; rfl, reached,
    step_of_ignore (unmapped_next.trans (unmapped_next.trans unmapped_next)), rfl, rfl,
    by decide +kernel, by decide +kernel, ?_, by decide +kernel, by decide +kernel⟩
  intro idles
  obtain ⟨-, place, -⟩ := idles [.step, .step] (by simp [Stimulus.isClockOrKey])
  revert place
  decide +kernel

end Machine

end HackComputer
