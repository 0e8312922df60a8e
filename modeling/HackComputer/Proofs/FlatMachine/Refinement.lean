import HackComputer.Proofs.FlatMachine
import HackComputer.Proofs.Machine.Fault
import HackComputer.Proofs.Memory.Program

/-!
# The machine refines the flat machine

`Machine.flat` forgets how a machine is built: which block of storage a word is
in, how the instruction is decoded, whether the machine is known to idle.  Every
stimulus commutes with it, so a machine and its flat machine stay together along
every list of stimuli.
-/

namespace HackComputer

namespace Word

/-- The fifteen-bit address in a word, as a word again. -/
theorem setWidth_setWidth_eq_low15 (word : Word) :
    (word.setWidth 15).setWidth 16 = word.low15 :=
  rfl

@[simp]
theorem setWidth_low15 (word : Word) : word.low15.setWidth 15 = word.setWidth 15 := by
  apply BitVec.eq_of_toNat_eq
  simp only [BitVec.toNat_setWidth, toNat_low15]
  omega

@[simp]
theorem low15_setWidth (address : BitVec 15) :
    low15 (address.setWidth 16) = address.setWidth 16 := by
  rw [low15_eq_self_iff, BitVec.toNat_setWidth]
  omega

theorem low15_eq_setWidth_iff {word : Word} {address : BitVec 15} :
    word.low15 = address.setWidth 16 ↔ address = word.setWidth 15 := by
  constructor
  · intro same
    rw [← setWidth_low15, same, BitVec.setWidth_setWidth_of_le _ (by decide), BitVec.setWidth_eq]
  · rintro rfl
    rfl

theorem setWidth_succ (word : Word) :
    (low15 (word + 1)).setWidth 15 = word.setWidth 15 + 1 := by
  rw [setWidth_low15, BitVec.setWidth_add _ _ (by decide)]
  rfl

theorem toNat_setWidth (word : Word) : (word.setWidth 15).toNat = word.low15.toNat := by
  rw [BitVec.toNat_setWidth, toNat_low15]

theorem setWidth_lt_keyboard_iff (word : Word) :
    word.setWidth 15 < FlatMachine.keyboard ↔ word.low15.toNat < keyboardAddress := by
  rw [BitVec.lt_def, toNat_setWidth]
  rfl

theorem keyboard_lt_setWidth_iff (word : Word) :
    FlatMachine.keyboard < word.setWidth 15 ↔ keyboardAddress < word.low15.toNat := by
  rw [BitVec.lt_def, toNat_setWidth]
  rfl

end Word

theorem FlatMachine.eq_keyboard_iff {address : BitVec 15} :
    address = keyboard ↔ address.toNat = keyboardAddress := by
  rw [← BitVec.toNat_inj]
  rfl

/-- The fields of a compute instruction, bit by bit. -/
def Compute.ofWord (word : Word) : Compute where
  ySource := if word.getLsbD 12 then .memory else .register
  alu :=
    { zx := word.getLsbD 11
      nx := word.getLsbD 10
      zy := word.getLsbD 9
      ny := word.getLsbD 8
      f := word.getLsbD 7
      no := word.getLsbD 6 }
  dest := ⟨word.getLsbD 5, word.getLsbD 4, word.getLsbD 3⟩
  jump := ⟨word.getLsbD 2, word.getLsbD 1, word.getLsbD 0⟩

theorem Instruction.decode_eq (word : Word) :
    decode word = if word.getLsbD 15 then .compute (.ofWord word) else .address word.low15 := by
  simp [decode, Compute.ofWord, AluFlags.ofField, Dest.ofField, Jump.ofField]

namespace Memory

variable (memory : Memory)

/-- The words at all data addresses: RAM, the screen after it, the keyboard, and
zeros. -/
def cells (address : BitVec 15) : Word :=
  if inRam : address.toNat < ramSize then memory.ram.read ⟨address.toNat, inRam⟩
  else if onScreen : address.toNat - ramSize < screenSize then
    memory.screen.read ⟨address.toNat - ramSize, onScreen⟩
  else if address = FlatMachine.keyboard then memory.keyboard
  else 0

theorem cells_eq_word (address : BitVec 15) :
    memory.cells address = memory.word (address.setWidth 16) := by
  have low : (Word.low15 (address.setWidth 16)).toNat = address.toNat := by
    rw [Word.low15_setWidth, BitVec.toNat_setWidth_of_le (by decide)]
  simp only [cells, word, Location.decode, low, FlatMachine.eq_keyboard_iff]
  by_cases inRam : address.toNat < ramSize
  · simp only [inRam, dite_true]
  by_cases onScreen : address.toNat - ramSize < screenSize
  · simp only [inRam, onScreen, dite_true, dite_false]
  · simp only [inRam, onScreen, dite_false]
    split <;> rfl

theorem cells_setWidth (address : Word) :
    memory.cells (address.setWidth 15) = memory.word address := by
  rw [cells_eq_word, Word.setWidth_setWidth_eq_low15, word_low15]

/-- A store below the keyboard changes one cell. -/
theorem cells_store (address value : Word) :
    (memory.store address value).cells =
      if address.setWidth 15 < FlatMachine.keyboard then
        Function.update memory.cells (address.setWidth 15) value
      else memory.cells := by
  funext index
  rw [cells_eq_word, word_store]
  simp only [Word.low15_setWidth, Word.low15_eq_setWidth_iff, ← Word.setWidth_lt_keyboard_iff,
    ← cells_eq_word]
  by_cases below : address.setWidth 15 < FlatMachine.keyboard
  · simp only [below, and_true, if_true, Function.update_apply]
  · simp only [below, and_false, if_false]

theorem cells_setKeyboard (key : Word) :
    (memory.setKeyboard key).cells = Function.update memory.cells FlatMachine.keyboard key := by
  funext index
  rw [cells_eq_word, word_setKeyboard, Word.low15_setWidth,
    BitVec.toNat_setWidth_of_le (by decide), ← cells_eq_word, Function.update_apply]
  simp only [FlatMachine.eq_keyboard_iff]

end Memory

namespace Machine

variable (machine : Machine)

/-- The flat machine that a machine stands for. -/
def flat : FlatMachine where
  a := machine.cpu.a
  d := machine.cpu.d
  pc := machine.cpu.pc.setWidth 15
  rom := fun index => machine.rom.fetch (index.setWidth 16)
  cells := machine.memory.cells
  resetLine := machine.resetLine
  unmapped := machine.memory.unmapped

/-! ## One cycle -/

theorem flat_word : machine.flat.word = machine.rom.fetch machine.cpu.pc := by
  simp only [FlatMachine.word, flat, Word.setWidth_setWidth_eq_low15, Rom.fetch, Word.low15_low15]

theorem setWidth_addressM : machine.cpu.addressM.setWidth 15 = machine.flat.address :=
  Word.setWidth_low15 machine.cpu.a

theorem instruction_eq :
    machine.instruction =
      if machine.flat.word.getLsbD 15 then .compute (.ofWord machine.flat.word)
      else .address machine.flat.word.low15 := by
  rw [flat_word, instruction, Instruction.decode_eq]

theorem flat_y :
    machine.flat.y =
      (Compute.ofWord machine.flat.word).operand machine.cpu.a
        (machine.memory.word machine.cpu.addressM) := by
  simp only [FlatMachine.y, Compute.operand, Compute.ofWord]
  cases machine.flat.word.getLsbD 12 with
  | false => rfl
  | true => exact machine.memory.cells_eq_word machine.flat.address

theorem flat_out : machine.flat.out = machine.out (.ofWord machine.flat.word) := by
  simp only [FlatMachine.out, flat_y]
  rfl

theorem flat_jumps (compute : machine.flat.word.getLsbD 15 = true) :
    machine.flat.jumps =
      (Compute.ofWord machine.flat.word).jumpsOn (machine.out (.ofWord machine.flat.word)) := by
  simp only [FlatMachine.jumps, compute, Bool.true_and, flat_out]
  rfl

theorem traps_flat_iff : machine.flat.Traps ↔ machine.Faults := by
  have touches : machine.instruction.usesMemory = true ↔
      machine.flat.word.getLsbD 15 = true ∧
        (machine.flat.word.getLsbD 12 = true ∨ machine.flat.word.getLsbD 3 = true) := by
    rw [Instruction.usesMemory_eq_true_iff, instruction_eq]
    cases machine.flat.word.getLsbD 15 <;> simp [Compute.ofWord]
  rw [FlatMachine.Traps, Faults, touches, Memory.Traps, addressM_low15, and_assoc]
  exact and_congr_right fun _ =>
    and_congr_left fun _ => Word.keyboard_lt_setWidth_iff machine.cpu.a

theorem flat_next_of_address (kind : machine.flat.word.getLsbD 15 = false) :
    machine.flat.next = machine.next.flat := by
  have found : machine.instruction = .address machine.flat.word.low15 := by
    rw [instruction_eq, kind]
    rfl
  obtain ⟨a_eq, d_eq, pc_eq, memory_eq⟩ := next_of_address found
  have stays : machine.flat.jumps = false := by
    rw [FlatMachine.jumps, kind, Bool.false_and]
  apply FlatMachine.ext
  · rw [FlatMachine.next, kind]
    exact a_eq.symm
  · rw [FlatMachine.next, kind]
    exact d_eq.symm
  · change _ = machine.next.cpu.pc.setWidth 15
    rw [pc_eq, FlatMachine.next, stays, apply_ite (BitVec.setWidth 15), Word.setWidth_succ]
    rfl
  · rfl
  · rw [FlatMachine.next, kind]
    exact congrArg Memory.cells memory_eq.symm
  · rfl
  · exact congrArg Memory.unmapped memory_eq.symm

theorem flat_next_of_compute (kind : machine.flat.word.getLsbD 15 = true) :
    machine.flat.next = machine.next.flat := by
  have found : machine.instruction = .compute (.ofWord machine.flat.word) := by
    rw [instruction_eq, kind]
    rfl
  obtain ⟨a_eq, d_eq, pc_eq, memory_eq⟩ := next_of_compute found
  apply FlatMachine.ext
  · change _ = machine.next.cpu.a
    rw [a_eq, FlatMachine.next, kind, flat_out]
    rfl
  · change _ = machine.next.cpu.d
    rw [d_eq, FlatMachine.next, kind, flat_out, Bool.true_and]
    rfl
  · change _ = machine.next.cpu.pc.setWidth 15
    rw [pc_eq, FlatMachine.next, flat_jumps machine kind, apply_ite (BitVec.setWidth 15),
      apply_ite (BitVec.setWidth 15), setWidth_addressM, Word.setWidth_succ]
    rfl
  · rfl
  · change _ = machine.next.memory.cells
    rw [memory_eq, apply_ite Memory.cells, Memory.cells_store, setWidth_addressM, ← ite_and,
      ← flat_out]
    simp only [FlatMachine.next, kind, Bool.true_and, Bool.and_eq_true, decide_eq_true_eq]
    rfl
  · rfl
  · exact unmapped_next.symm

theorem flat_next : machine.flat.next = machine.next.flat := by
  cases kind : machine.flat.word.getLsbD 15 with
  | false => exact machine.flat_next_of_address kind
  | true => exact machine.flat_next_of_compute kind

theorem flat_step :
    machine.flat.step = (machine.step.1.map fun _ => (), machine.step.2.flat) := by
  by_cases faults : machine.Faults
  · rw [step_of_faults machine faults, FlatMachine.step, if_pos (machine.traps_flat_iff.2 faults)]
    rfl
  · rw [step_of_not_faults machine faults, FlatMachine.step,
      if_neg (mt machine.traps_flat_iff.1 faults), flat_next]
    rfl

/-! ## Lists of stimuli -/

theorem flat_poke (address value : Word) :
    machine.flat.respond (.poke address value) =
      ((machine.respond (.poke address value)).1,
        (machine.respond (.poke address value)).2.flat) := by
  by_cases below : address.toNat < keyboardAddress
  · have inside : address.setWidth 15 < FlatMachine.keyboard := by
      rwa [Word.setWidth_lt_keyboard_iff,
        Word.low15_eq_self_iff.2 (Nat.lt_trans below (by decide))]
    have stored := machine.memory.cells_store address value
    rw [if_pos inside] at stored
    simp only [respond, poke, Memory.poke_eq, if_pos below, flat, stored, Memory.unmapped_store]
    exact if_pos below
  · simp only [respond, poke, Memory.poke_eq, if_neg below]
    exact if_neg below

/-- A machine and its flat machine respond alike. -/
theorem flat_respond (stimulus : Stimulus) :
    machine.flat.respond stimulus =
      ((machine.respond stimulus).1, (machine.respond stimulus).2.flat) := by
  cases stimulus with
  | step => exact machine.flat_step
  | setKeyboard key =>
      rw [FlatMachine.respond, respond, setKeyboard]
      simp only [flat, Memory.cells_setKeyboard]
      rfl
  | setReset asserted => rfl
  | poke address value => exact machine.flat_poke address value
  | reset => rfl

/-- A machine and its flat machine stay together. -/
theorem flat_drive (stimuli : List Stimulus) :
    machine.flat.drive stimuli =
      ((machine.drive stimuli).1, (machine.drive stimuli).2.flat) :=
  Stimulus.drive_view flat flat_respond stimuli machine

/-- The word that an instruction reads is the same. -/
theorem flat_read (address : Word) : machine.flat.read address = machine.memory.read address := by
  rw [FlatMachine.read, Memory.read_eq]
  simp only [Word.keyboard_lt_setWidth_iff]
  change ite _ _ (Except.ok (machine.memory.cells _)) = _
  rw [Memory.cells_setWidth]
  rfl

/-- No stimulus puts more than fifteen bits into the program counter. -/
theorem low15_pc_respond (bounded : machine.cpu.pc.low15 = machine.cpu.pc) (stimulus : Stimulus) :
    (machine.respond stimulus).2.cpu.pc.low15 = (machine.respond stimulus).2.cpu.pc := by
  cases stimulus with
  | step =>
      rw [respond]
      by_cases faults : machine.Faults
      · rw [step_of_faults machine faults]
        exact bounded
      · rw [step_of_not_faults machine faults]
        exact low15_pc_next
  | setKeyboard key => exact bounded
  | setReset asserted => exact bounded
  | poke address value => exact bounded
  | reset => rfl

theorem low15_pc_drive (bounded : machine.cpu.pc.low15 = machine.cpu.pc)
    (stimuli : List Stimulus) :
    (machine.drive stimuli).2.cpu.pc.low15 = (machine.drive stimuli).2.cpu.pc :=
  (Stimulus.drive_preserves (fun machine : Machine => machine.cpu.pc.low15 = machine.cpu.pc)
    (fun _ _ => True)
    (fun machine bounded stimulus _ => ⟨machine.low15_pc_respond bounded stimulus, trivial⟩)
    bounded).1

/-- A machine with a program stands for the flat machine that starts the program
from the same registers and words. -/
theorem flat_withProgram {program : List Word} (fits : program.length ≤ romSize) :
    (machine.withProgram program fits).flat =
      .start program machine.cpu.a machine.cpu.d machine.memory.cells machine.resetLine
        machine.memory.unmapped := by
  apply FlatMachine.ext
  · rfl
  · rfl
  · rfl
  · funext index
    change (Rom.holding program fits).fetch (index.setWidth 16) = program.getD index.toNat 0
    rw [Rom.fetch_holding, Word.low15_setWidth, BitVec.toNat_setWidth_of_le (by decide)]
  · rfl
  · rfl
  · rfl

/-- A machine that has a program loaded into it, whatever its registers, memory,
reset line and settings are, does what the flat machine does that starts the
program from the same registers and words.  Along every list of stimuli the
reports are the same, and at its end so are the registers, the word at every
data address and what an instruction reads there. -/
theorem drive_eq_flat_drive (machine : Machine) (program : List Word)
    (fits : program.length ≤ romSize) (stimuli : List Stimulus) :
    ∃ loaded, machine.load program = (.ok (), loaded) ∧
      let last := loaded.drive stimuli
      let flat := (FlatMachine.start program machine.cpu.a machine.cpu.d machine.memory.cells
        machine.resetLine machine.memory.unmapped).drive stimuli
      last.1 = flat.1 ∧ last.2.cpu.a = flat.2.a ∧ last.2.cpu.d = flat.2.d ∧
        last.2.cpu.pc = flat.2.pc.setWidth 16 ∧ last.2.memory.cells = flat.2.cells ∧
        ∀ address, last.2.memory.read address = flat.2.read address := by
  use machine.withProgram program fits, machine.load_of_fits fits
  have together := (machine.withProgram program fits).flat_drive stimuli
  have bounded := (machine.withProgram program fits).low15_pc_drive rfl stimuli
  rw [← machine.flat_withProgram fits, together]
  exact ⟨rfl, rfl, rfl, bounded.symm, rfl, fun address => (flat_read _ address).symm⟩

/-- A read above the keyboard is refused by both machines. -/
theorem drive_read_above_keyboard :
    [0x6001, 0xFC10].length ≤ romSize ∧
      ∃ loaded, (ofConfig { unmapped := .fault }).load [0x6001, 0xFC10] = (.ok (), loaded) ∧
        (loaded.drive [.setKeyboard 65, .step, .step]).1 =
          [.ok (), .ok (), .error (.memory (.unmappedAccess 0x6001))] := by
  obtain ⟨loaded, load_eq, reports, -⟩ :=
    drive_eq_flat_drive (ofConfig { unmapped := .fault }) [0x6001, 0xFC10] (by decide)
      [.setKeyboard 65, .step, .step]
  exact ⟨by decide, loaded, load_eq, reports.trans rfl⟩

end Machine

end HackComputer
