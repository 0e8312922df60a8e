import HackComputer.Proofs.Machine.Fault
import HackComputer.Proofs.Memory.Pixel
import HackComputer.Proofs.Memory.Program

/-!
# The screen in the address space

A word reaches the screen in three ways: by the clock edge of memory, by a cycle that
ends with such an edge, and by a poke.  On each of them it shows in the sixteen pixels
of its data address, and no other pixel changes; a word that goes elsewhere, or that is
refused, changes none.
-/

namespace HackComputer

/-- After a word was stored at a data address, the screen shows its bits from left to
right in the pixels of that address; all other pixels are as before. -/
structure Screen.Shows (before after : Screen) (address : Nat) (value : Word) : Prop where
  shown : ∀ x y, 0x4000 + (32 * y.val + x.val / 16) = address →
    after.pixel x y = value.getLsbD (x.val % 16)
  kept : ∀ x y, 0x4000 + (32 * y.val + x.val / 16) ≠ address →
    after.pixel x y = before.pixel x y
  unchanged : address < 0x4000 ∨ 0x5FFF < address → after = before

namespace Screen

variable {screen : Screen} {address : Nat} {value : Word}

/-- An address outside the screen has no pixels. -/
theorem Shows.of_outside (outside : address < 0x4000 ∨ 0x5FFF < address) :
    screen.Shows screen address value where
  shown x y same := by
    have inside : 32 * y.val + x.val / 16 < 0x2000 := (wordOffset x y).isLt
    omega
  kept _ _ _ := rfl
  unchanged _ := rfl

theorem Shows.of_write {offset : Fin screenSize} (address_eq : address = 0x4000 + offset.val) :
    screen.Shows (screen.write offset value) address value where
  shown x y same := by
    have offset_eq : offset = wordOffset x y :=
      Fin.ext (Nat.add_left_cancel (address_eq.symm.trans same.symm))
    rw [pixel_write, if_pos offset_eq]
  kept x y other := by
    have offset_ne : offset ≠ wordOffset x y := by
      rintro rfl
      exact other address_eq.symm
    rw [pixel_write, if_neg offset_ne]
  unchanged outside := by
    have inside : offset.val < 0x2000 := offset.isLt
    omega

end Screen

namespace Memory

variable (memory : Memory) (address value : Word)

theorem shows_store :
    memory.screen.Shows (memory.store address value).screen address.low15.toNat value := by
  rw [store]
  cases found : Location.decode address with
  | ram index =>
      have inside : index.val < 0x4000 := index.isLt
      exact .of_outside (.inl (Location.decode_eq_ram_iff.1 found ▸ inside))
  | screen offset => exact .of_write (Location.decode_eq_screen_iff.1 found)
  | keyboard =>
      refine .of_outside (.inr ?_)
      rw [Location.decode_eq_keyboard_iff.1 found]
      decide
  | unmapped low =>
      exact .of_outside (.inr (Nat.lt_trans (by decide) (Location.decode_eq_unmapped_iff.1 found).1))

theorem shows_write :
    memory.screen.Shows (memory.write address value true).2.screen address.low15.toNat value := by
  rw [write_eq]
  split
  · rename_i refused
    exact .of_outside (.inr (Nat.lt_trans (by decide) refused.2.2))
  · exact memory.shows_store address value

theorem shows_poke :
    memory.screen.Shows (memory.poke address value).2.screen address.toNat value := by
  rw [poke_eq]
  split
  · rename_i below
    have shown := memory.shows_store address value
    rwa [Word.low15_eq_self_iff.2 (Nat.lt_trans below (by decide))] at shown
  · rename_i not_below
    exact .of_outside (.inr (Nat.lt_of_lt_of_le (by decide) (Nat.le_of_not_lt not_below)))

end Memory

namespace Machine

variable {machine after : Machine} {info : StepInfo}

/-- A cycle changes the screen by the word that it drives on the memory interface. -/
theorem shows_of_step (stepped : machine.step = (.ok info, after)) :
    if info.outputs.writeM = true then
      machine.memory.screen.Shows after.memory.screen info.outputs.addressM.toNat
        info.outputs.outM
    else after.memory.screen = machine.memory.screen := by
  obtain ⟨-, rfl, rfl⟩ := step_eq_ok_iff.1 stepped
  have writes_eq : machine.cycleInfo.outputs.writeM = machine.instruction.writesMemory :=
    machine.cpu.evaluate_writeM _ _
  rw [writes_eq, cycleInfo_addressM, next]
  split
  · have shown := machine.memory.shows_store machine.cpu.addressM machine.evaluation.outM
    rwa [addressM_low15] at shown
  · rfl

theorem not_faults_of_below (below : machine.cpu.addressM.toNat < keyboardAddress) :
    ¬machine.Faults :=
  fun faults => machine.memory.not_traps_of_below below faults.1

/-- A cycle of a compute instruction with destination M stores the result for D and the
operand that it takes, and the screen shows it at the data address. -/
theorem shows_of_compute {fields : Compute} (found : machine.instruction = .compute fields)
    (stores : fields.dest.m = true) (allowed : ¬machine.Faults) :
    ∃ inM info after, machine.operand (.compute fields) = .ok inM ∧
      machine.step = (.ok info, after) ∧
      machine.memory.screen.Shows after.memory.screen machine.cpu.addressM.toNat
        (fields.result machine.cpu.d (fields.operand machine.cpu.a inM)) := by
  have operand_eq := machine.operand_eq
  rw [if_neg (machine.not_reads_and_traps allowed), found] at operand_eq
  obtain ⟨-, -, -, outM⟩ := machine.cpu.evaluate_of_compute machine.inM found
  have memory_eq : machine.next.memory =
      machine.memory.store machine.cpu.addressM machine.evaluation.outM := by
    rw [next, found, Instruction.writesMemory, if_pos stores]
  have shown := machine.memory.shows_store machine.cpu.addressM machine.evaluation.outM
  rw [← memory_eq, addressM_low15, evaluation, outM] at shown
  exact ⟨machine.inM, _, _, operand_eq, step_of_not_faults machine allowed, shown⟩

/-- A cycle that is refused, or whose instruction has no destination M, stores nothing. -/
theorem screen_step_of_not_stores
    (stores_nothing : ∀ fields, machine.instruction = .compute fields → fields.dest.m = true →
      machine.Faults) : machine.step.2.memory.screen = machine.memory.screen := by
  by_cases faults : machine.Faults
  · rw [step_of_faults machine faults]
  · rw [step_of_not_faults machine faults, next]
    cases found : machine.instruction with
    | address literal => rfl
    | compute fields =>
        have keeps : ¬fields.dest.m = true := fun stores =>
          faults (stores_nothing fields found stores)
        dsimp only
        rw [Instruction.writesMemory, if_neg keeps]

/-- A pixel is a bit of the word that a cycle reads, and a peek finds, at its data
address.  A word stored at a screen address shows its bits from left to right in the
sixteen pixels of that address and leaves all others, whether it is stored by a cycle,
by the clock edge of memory or by a poke, which are not refused there; a store to any
other data address changes no pixel.  A cycle stores the result of a compute instruction
with destination M at the address in A, and nothing for any other instruction. -/
theorem pixels_follow_every_store (machine : Machine) :
    (∀ x y, ∃ word, machine.memory.read (Screen.wordAddress x y) = .ok word ∧
      machine.peek (Screen.wordAddress x y) = .ok word ∧
      machine.memory.screen.pixel x y = word.getLsbD (x.val % 16)) ∧
    (∀ info after, machine.step = (.ok info, after) →
      if info.outputs.writeM = true then
        machine.memory.screen.Shows after.memory.screen info.outputs.addressM.toNat
          info.outputs.outM
      else after.memory.screen = machine.memory.screen) ∧
    (∀ fields, Instruction.decode (machine.rom.fetch machine.cpu.pc) = .compute fields →
      fields.dest.m = true → ¬machine.Faults →
      ∃ inM info after, machine.operand (.compute fields) = .ok inM ∧
        machine.step = (.ok info, after) ∧
        machine.memory.screen.Shows after.memory.screen machine.cpu.addressM.toNat
          (fields.result machine.cpu.d (fields.operand machine.cpu.a inM))) ∧
    ((∀ fields, Instruction.decode (machine.rom.fetch machine.cpu.pc) = .compute fields →
        fields.dest.m = true → machine.Faults) →
      machine.step.2.memory.screen = machine.memory.screen) ∧
    (∀ address value,
      machine.memory.screen.Shows (machine.memory.write address value true).2.screen
        address.low15.toNat value ∧
      machine.memory.screen.Shows (machine.poke address value).2.memory.screen
        address.toNat value) ∧
    ∀ address : Word, 0x4000 ≤ address.toNat → address.toNat ≤ 0x5FFF →
      (∀ value, (machine.memory.write address value true).1 = .ok () ∧
        (machine.poke address value).1 = .ok ()) ∧
      (machine.cpu.addressM = address →
        ¬machine.Faults ∧ ∃ info, machine.step.1 = .ok info) := by
  refine ⟨?_, fun _ _ => shows_of_step, fun _ => shows_of_compute, screen_step_of_not_stores,
    fun address value => ⟨?_, ?_⟩, ?_⟩
  · intro x y
    have read_eq := Screen.read_wordAddress x y machine.memory
    refine ⟨_, read_eq, ?_, Screen.pixel_eq _ x y⟩
    rw [peek, Memory.peek_eq, if_pos (Screen.toNat_wordAddress_lt x y), read_eq]
  · exact machine.memory.shows_write address value
  · exact machine.memory.shows_poke address value
  · intro address _ le_last
    have below : address.toNat < keyboardAddress := Nat.lt_succ_of_le le_last
    refine ⟨fun value => ⟨?_, ?_⟩, ?_⟩
    · rw [Memory.write_eq, if_neg fun refused => machine.memory.not_traps_of_below below refused.2]
    · rw [poke, Memory.poke_eq, if_pos below]
    · rintro rfl
      have allowed := not_faults_of_below below
      rw [step_of_not_faults machine allowed]
      exact ⟨allowed, _, rfl⟩

/-- A machine with the program `@16385, M=M+1` and 2 in that screen word, after the first
cycle. -/
def incrementingPixels : Machine :=
  (((ofConfig {}).withProgram [0x4001, 0xFDC8] (by decide)).poke 0x4001 2).2.next

/-- The cycle of `incrementingPixels` takes the operand 2 and stores 3 at 16385: the
leftmost pixel of that word lights up beside the second one, and the one after them stays
dark. -/
theorem incrementing_lights_leftmost_pixel :
    ∃ fields info after,
      Instruction.decode (incrementingPixels.rom.fetch incrementingPixels.cpu.pc) =
        .compute fields ∧
      fields.dest.m = true ∧ ¬incrementingPixels.Faults ∧
      incrementingPixels.operand (.compute fields) = .ok 2 ∧
      incrementingPixels.step = (.ok info, after) ∧
      incrementingPixels.memory.screen.Shows after.memory.screen 0x4001 3 ∧
      incrementingPixels.memory.screen.pixel ⟨16, by decide⟩ ⟨0, by decide⟩ = false ∧
      after.memory.screen.pixel ⟨16, by decide⟩ ⟨0, by decide⟩ = true ∧
      after.memory.screen.pixel ⟨17, by decide⟩ ⟨0, by decide⟩ = true ∧
      after.memory.screen.pixel ⟨18, by decide⟩ ⟨0, by decide⟩ = false := by
  let fields : Compute :=
    { ySource := .memory
      alu := ⟨true, true, false, true, true, true⟩
      dest := ⟨false, false, true⟩
      jump := ⟨false, false, false⟩ }
  have found : Instruction.decode (incrementingPixels.rom.fetch incrementingPixels.cpu.pc) =
      .compute fields := by
    decide +kernel
  have allowed : ¬incrementingPixels.Faults := by
    decide +kernel
  have operand_eq : incrementingPixels.operand (.compute fields) = .ok 2 := by
    decide +kernel
  obtain ⟨-, -, stores, -⟩ := pixels_follow_every_store incrementingPixels
  obtain ⟨inM, info, after, read, stepped, shows⟩ := stores fields found rfl allowed
  obtain rfl : 2 = inM := Except.ok.inj (operand_eq.symm.trans read)
  have shows_three : incrementingPixels.memory.screen.Shows after.memory.screen 0x4001 3 := by
    have address_eq : incrementingPixels.cpu.addressM.toNat = 0x4001 := by
      decide +kernel
    have result_eq : fields.result incrementingPixels.cpu.d
        (fields.operand incrementingPixels.cpu.a 2) = 3 := by
      decide +kernel
    rwa [address_eq, result_eq] at shows
  refine ⟨fields, info, after, found, rfl, allowed, operand_eq, stepped, shows_three,
    by decide +kernel, ?_, ?_, ?_⟩
  · exact shows_three.shown ⟨16, _⟩ ⟨0, _⟩ (by decide)
  · exact shows_three.shown ⟨17, _⟩ ⟨0, _⟩ (by decide)
  · exact shows_three.shown ⟨18, _⟩ ⟨0, _⟩ (by decide)

end Machine

end HackComputer
