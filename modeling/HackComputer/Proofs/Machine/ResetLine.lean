import HackComputer.Proofs.Machine.Run
import HackComputer.Proofs.Memory.Program

/-!
# The reset line

The reset line takes part in the clock edge of the program counter and in the run
state, and in nothing else: whether a cycle is refused, what it drives on the memory
interface and what it stores does not depend on it.  While it is asserted, every
cycle ends at address 0, running.
-/

namespace HackComputer.Machine

/-- The machines agree in everything but control: the program counter, the run state,
the reset line and the last cycle. -/
structure SameData (first second : Machine) : Prop where
  a_eq : first.cpu.a = second.cpu.a
  d_eq : first.cpu.d = second.cpu.d
  memory_eq : first.memory = second.memory
  rom_eq : first.rom = second.rom
  cycles_eq : first.cycles = second.cycles
  haltDetection_eq : first.haltDetection = second.haltDetection

/-- The machine has come to address 0 with its reset line asserted, and goes on
running the program of `start`. -/
structure HeldAtZero (start machine : Machine) : Prop where
  asserted : machine.resetLine = true
  rom_eq : machine.rom = start.rom
  pc_eq : machine.cpu.pc = 0
  state_eq : machine.state = .running

/-! ## One cycle -/

/-- The next cycle stores the same with the line asserted and released. -/
theorem next_setReset_sameData (machine : Machine) (first second : Bool) :
    (machine.setReset first).next.SameData (machine.setReset second).next where
  a_eq := by
    rw [next, next, Cpu.commit_a, Cpu.commit_a]
    rfl
  d_eq := by
    rw [next, next, Cpu.commit_d, Cpu.commit_d]
    rfl
  memory_eq := rfl
  rom_eq := rfl
  cycles_eq := rfl
  haltDetection_eq := rfl

variable {start machine last : Machine} {count : Nat}

/-- A cycle with the line asserted comes to address 0, whatever it executes. -/
theorem heldAtZero_next (asserted : machine.resetLine = true) (rom_eq : machine.rom = start.rom) :
    start.HeldAtZero machine.next where
  asserted := asserted
  rom_eq := rom_eq
  pc_eq := by rw [next, Cpu.commit_pc, if_pos asserted]
  state_eq := by rw [next, RunState.next, if_pos asserted]

/-! ## Many cycles -/

theorem heldAtZero_of_afterCycles? (asserted : machine.resetLine = true)
    (reached : machine.afterCycles? (count + 1) = some last) : machine.HeldAtZero last := by
  -- It is enough to look at the last cycle, which the line was still asserted for.
  obtain ⟨middle, info, reached_middle, stepped⟩ := afterCycles?_succ_eq_some_iff.1 reached
  obtain ⟨line, rom_eq⟩ : middle.resetLine = true ∧ middle.rom = machine.rom := by
    refine afterCycles?_preserves (fun after => after.resetLine = true ∧ after.rom = machine.rom)
      ?_ ⟨asserted, rfl⟩ reached_middle
    rintro before info after ⟨line, rom_eq⟩ stepped
    obtain ⟨-, -, rfl⟩ := step_eq_ok_iff.1 stepped
    exact ⟨line, rom_eq⟩
  obtain ⟨-, -, rfl⟩ := step_eq_ok_iff.1 stepped
  exact heldAtZero_next line rom_eq

/-- A cycle is refused for the same reason with the reset line asserted and released,
or it succeeds both times, drives the same on the memory interface and leaves the same
data; with the line asserted it comes to address 0, running.  So after any number of
successful cycles with the line held, the machine is there, and all cycles but the
first have executed the word at address 0. -/
theorem reset_line_touches_only_control (machine : Machine) :
    ((∃ error, (machine.setReset true).step = (.error error, machine.setReset true) ∧
        (machine.setReset false).step = (.error error, machine.setReset false)) ∨
      ∃ info info' after after', (machine.setReset true).step = (.ok info, after) ∧
        (machine.setReset false).step = (.ok info', after') ∧ after.SameData after' ∧
        info.outputs.outM = info'.outputs.outM ∧ info.outputs.writeM = info'.outputs.writeM ∧
        info.outputs.addressM = info'.outputs.addressM ∧
        after.cpu.pc = 0 ∧ after.state = .running) ∧
    ∀ count last, 1 ≤ count → (machine.setReset true).afterCycles? count = some last →
      last.cpu.pc = 0 ∧ last.state = .running ∧
        ∀ index, 1 ≤ index → index < count → ∃ middle info after,
          (machine.setReset true).afterCycles? index = some middle ∧
            middle.step = (.ok info, after) ∧
            (machine.setReset true).afterCycles? (index + 1) = some after ∧
            info.pc = 0 ∧ info.word = machine.rom.fetch 0 := by
  constructor
  · by_cases faults : machine.Faults
    · -- What a cycle is refused for is there before its clock edge.
      left
      have faults' (asserted : Bool) : (machine.setReset asserted).Faults := faults
      exact ⟨machine.fault, step_of_faults _ (faults' true), step_of_faults _ (faults' false)⟩
    · right
      have allowed (asserted : Bool) : ¬(machine.setReset asserted).Faults := faults
      have held : machine.HeldAtZero (machine.setReset true).next := heldAtZero_next rfl rfl
      exact ⟨_, _, _, _, step_of_not_faults _ (allowed true), step_of_not_faults _ (allowed false),
        machine.next_setReset_sameData true false, rfl, rfl, rfl, held.pc_eq, held.state_eq⟩
  · intro count last positive reached
    obtain ⟨before, rfl⟩ := Nat.exists_eq_add_of_le' positive
    have held := heldAtZero_of_afterCycles? rfl reached
    refine ⟨held.pc_eq, held.state_eq, ?_⟩
    intro index later before_last
    obtain ⟨middle, info, after, reached_middle, stepped, reached_after⟩ :=
      exists_cycle_of_afterCycles? before_last reached
    obtain ⟨earlier, rfl⟩ := Nat.exists_eq_add_of_le' later
    have held_middle := heldAtZero_of_afterCycles? rfl reached_middle
    obtain ⟨-, rfl, -⟩ := step_eq_ok_iff.1 stepped
    refine ⟨middle, _, after, reached_middle, stepped, reached_after, held_middle.pc_eq, ?_⟩
    change middle.rom.fetch middle.cpu.pc = machine.rom.fetch 0
    rw [held_middle.pc_eq, held_middle.rom_eq]
    rfl

/-- A machine with the program `@7, D=A, @2, 0;JMP`, halted in the idle loop at its
end. -/
def haltedAtTwo : Machine :=
  ((ofConfig {}).withProgram [0x0007, 0xEC10, 0x0002, 0xEA87] (by decide)).next.next.next.next

/-- With the line held, the machine `haltedAtTwo` leaves its loop and executes its first
word again and again. -/
theorem reset_line_frees_haltedAtTwo :
    haltedAtTwo.state = .halted ∧ haltedAtTwo.cpu.pc = 2 ∧
      ∃ last, (haltedAtTwo.setReset true).afterCycles? 3 = some last ∧
        last.cpu.pc = 0 ∧ last.state = .running ∧
        ∃ middle info after, (haltedAtTwo.setReset true).afterCycles? 2 = some middle ∧
          middle.step = (.ok info, after) ∧ info.pc = 0 ∧ info.word = 0x0007 := by
  refine ⟨by decide +kernel, by decide +kernel, ?_⟩
  have lasts : ((haltedAtTwo.setReset true).afterCycles? 3).isSome = true := by
    decide +kernel
  obtain ⟨last, reached⟩ := Option.isSome_iff_exists.1 lasts
  obtain ⟨pc_eq, state_eq, cycles⟩ :=
    (reset_line_touches_only_control haltedAtTwo).2 3 last (by decide) reached
  obtain ⟨middle, info, after, reached_middle, stepped, -, info_pc, info_word⟩ :=
    cycles 2 (by decide) (by decide)
  have first_word : haltedAtTwo.rom.fetch 0 = 0x0007 := by
    decide +kernel
  exact ⟨last, reached, pc_eq, state_eq, middle, info, after, reached_middle, stepped, info_pc,
    info_word.trans first_word⟩

end HackComputer.Machine
