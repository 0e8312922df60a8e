import HackComputer.Proofs.Machine.Execution

/-!
# Past the end of a program

What lies behind a program in program memory are zeros, which are instructions that load
zero into A.  A machine that has run off the end of its program executes them up to the
top of program memory, where the program counter wraps, and so starts the program again
with everything but A as it was.
-/

namespace HackComputer

/-- Behind the program, program memory is clear. -/
theorem Rom.fetch_holding_eq_zero {program : List Word} (fits : program.length ≤ romSize)
    {pc : Word} (behind : program.length ≤ pc.low15.toNat) :
    (holding program fits).fetch pc = 0 := by
  rw [fetch_holding, List.getD_eq_default program 0 behind]

namespace Machine

/-- The machine has come from `start` in `count` cycles that have loaded zero into A and
done nothing else. -/
structure Coasted (start : Machine) (count : Nat) (machine : Machine) : Prop where
  rom_eq : machine.rom = start.rom
  resetLine_eq : machine.resetLine = start.resetLine
  haltDetection_eq : machine.haltDetection = start.haltDetection
  toNat_pc : machine.cpu.pc.toNat = (start.cpu.pc.toNat + count) % 0x8000
  a_eq : 0 < count → machine.cpu.a = 0
  d_eq : machine.cpu.d = start.cpu.d
  memory_eq : machine.memory = start.memory
  state_eq : machine.state = start.state
  cycles_eq : machine.cycles = start.cycles + count

variable {start machine : Machine} {count : Nat}

theorem coasted_refl (short : start.cpu.pc.toNat < 0x8000) : start.Coasted 0 start where
  rom_eq := rfl
  resetLine_eq := rfl
  haltDetection_eq := rfl
  toNat_pc := (Nat.mod_eq_of_lt short).symm
  a_eq positive := absurd positive (Nat.lt_irrefl 0)
  d_eq := rfl
  memory_eq := rfl
  state_eq := rfl
  cycles_eq := rfl

/-! ## One cycle -/

/-- A zero word is the instruction `@0`. -/
theorem instruction_of_zero (zero : machine.rom.fetch machine.cpu.pc = 0) :
    machine.instruction = .address 0 := by
  rw [instruction, zero]
  rfl

theorem step_of_zero (zero : machine.rom.fetch machine.cpu.pc = 0) :
    machine.step = (.ok machine.cycleInfo, machine.next) :=
  step_of_not_faults machine (not_faults_of_address (instruction_of_zero zero))

theorem Coasted.next (coasted : start.Coasted count machine) (released : start.resetLine = false)
    (zero : machine.rom.fetch machine.cpu.pc = 0) : start.Coasted (count + 1) machine.next := by
  have found := instruction_of_zero zero
  have released' : machine.resetLine = false := coasted.resetLine_eq.trans released
  obtain ⟨a_next, d_next, pc_next, memory_next⟩ := next_of_address found
  have state_next : machine.next.state = machine.state :=
    state_next_of_not_entersIdleLoop released'
      (not_entersIdleLoop_of_not_jumps (not_jumps_of_address found))
  refine ⟨coasted.rom_eq, coasted.resetLine_eq, coasted.haltDetection_eq, ?_, fun _ => a_next,
    d_next.trans coasted.d_eq, memory_next.trans coasted.memory_eq,
    state_next.trans coasted.state_eq, congrArg (· + 1) coasted.cycles_eq⟩
  rw [pc_next, released', if_neg Bool.false_ne_true, Word.toNat_low15_succ, coasted.toNat_pc]
  omega

/-! ## Many cycles -/

/-- Program memory of the machine is clear from an address on, at which the machine
stands or behind which it does, and its reset line is released. -/
structure PastProgram (length : Nat) (start : Machine) : Prop where
  zeros : ∀ pc : Word, length ≤ pc.low15.toNat → start.rom.fetch pc = 0
  past : length ≤ start.cpu.pc.toNat
  short : start.cpu.pc.toNat < 0x8000
  released : start.resetLine = false

variable {length : Nat}

/-- Below the top of program memory there is another zero. -/
theorem PastProgram.fetch_eq_zero (past : start.PastProgram length)
    (coasted : start.Coasted count machine) (below : start.cpu.pc.toNat + count < 0x8000) :
    machine.rom.fetch machine.cpu.pc = 0 := by
  rw [coasted.rom_eq]
  apply past.zeros
  have := past.past
  rw [Word.toNat_low15, coasted.toNat_pc]
  omega

theorem PastProgram.coasts (past : start.PastProgram length)
    (within : start.cpu.pc.toNat + count ≤ 0x8000) :
    ∃ machine, start.afterCycles? count = some machine ∧ start.Coasted count machine := by
  induction count with
  | zero => exact ⟨start, rfl, coasted_refl past.short⟩
  | succ count inductionHypothesis =>
      obtain ⟨machine, reached, coasted⟩ := inductionHypothesis (Nat.le_of_succ_le within)
      have zero := past.fetch_eq_zero coasted within
      exact ⟨machine.next,
        afterCycles?_succ_eq_some_iff.2 ⟨machine, _, reached, step_of_zero zero⟩,
        coasted.next past.released zero⟩

/-- A loaded program is followed by zeros, whatever program memory held before. -/
theorem pastProgram_of_rom_eq {program : List Word} (fits : program.length ≤ romSize)
    (rom_eq : machine.rom = (start.withProgram program fits).rom)
    (past : program.length ≤ machine.cpu.pc.toNat) (short : machine.cpu.pc.toNat ≤ 0x7FFF)
    (released : machine.resetLine = false) : machine.PastProgram program.length where
  zeros pc behind := by
    rw [rom_eq]
    exact Rom.fetch_holding_eq_zero fits behind
  past := past
  short := Nat.lt_succ_of_le short
  released := released

/-- A program that leaves room in program memory is loaded.  Any machine with this program
memory, the reset line released and the program counter past the program then takes as
many cycles as it is away from the top, each of them on a zero word, and comes to address
0 with zero in A; all else is as it was, and the cycles are counted.  So a run over these
cycles neither halts nor fails. -/
theorem returns_to_start_past_program (start : Machine) {program : List Word}
    (room : program.length < 32768) :
    ∃ loaded, start.load program = (.ok (), loaded) ∧
      ∀ machine : Machine, machine.rom = loaded.rom → machine.resetLine = false →
        program.length ≤ machine.cpu.pc.toNat → machine.cpu.pc.toNat ≤ 0x7FFF →
        let count := 32768 - machine.cpu.pc.toNat
        (∀ index < count, ∃ middle info after, machine.afterCycles? index = some middle ∧
          middle.step = (.ok info, after) ∧
          info.pc.toNat = machine.cpu.pc.toNat + index ∧ info.word = 0) ∧
        ∃ last, machine.afterCycles? count = some last ∧
          last.cpu.pc = 0 ∧ last.cpu.a = 0 ∧ last.cpu.d = machine.cpu.d ∧
          last.memory = machine.memory ∧ last.state = machine.state ∧
          last.cycles = machine.cycles + count ∧
          last.rom = machine.rom ∧ last.resetLine = false ∧
          last.haltDetection = machine.haltDetection ∧
          (machine.state = .running → last.cycles ≤ maxCycles →
            machine.run count = (.ok count, last)) := by
  have fits : program.length ≤ romSize := Nat.le_of_lt room
  refine ⟨_, start.load_of_fits fits, fun machine rom_eq released past short => ?_⟩
  have behind := pastProgram_of_rom_eq fits rom_eq past short released
  intro count
  have away : machine.cpu.pc.toNat + count = 0x8000 := by omega
  constructor
  · intro index before
    have below : machine.cpu.pc.toNat + index < 0x8000 := by omega
    obtain ⟨middle, reached, coasted⟩ := behind.coasts (Nat.le_of_lt below)
    have zero := behind.fetch_eq_zero coasted below
    exact ⟨middle, _, _, reached, step_of_zero zero,
      coasted.toNat_pc.trans (Nat.mod_eq_of_lt below), zero⟩
  · obtain ⟨last, reached, coasted⟩ := behind.coasts (Nat.le_of_eq away)
    have pc_eq : last.cpu.pc = 0 := by
      apply BitVec.eq_of_toNat_eq
      rw [coasted.toNat_pc, away]
      rfl
    refine ⟨last, reached, pc_eq, coasted.a_eq (by omega), coasted.d_eq, coasted.memory_eq,
      coasted.state_eq, coasted.cycles_eq, coasted.rom_eq, coasted.resetLine_eq.trans released,
      coasted.haltDetection_eq, fun running counted => ?_⟩
    apply run_of_running (coasted.cycles_eq ▸ counted) reached
    intro index before middle reached_middle
    have within : machine.cpu.pc.toNat + index ≤ 0x8000 := by omega
    obtain ⟨middle', reached_middle', coasted'⟩ := behind.coasts within
    obtain rfl := Option.some.inj (reached_middle.symm.trans reached_middle')
    exact coasted'.state_eq.trans running

/-- A machine that faults at unmapped addresses, with three jumps as its program. -/
def crowded : Machine :=
  (ofConfig { unmapped := .fault }).withProgram [0xEA87, 0xEA87, 0xEA87] (by decide)

/-- The machine `crowded` with the program `@7` in place of the three jumps. -/
def refilled : Machine :=
  crowded.withProgram [0x0007] (by decide)

/-- The program of `refilled` goes round: after its one instruction, which loads 7 into A,
32767 cycles lead back to it with zero in A. -/
theorem refilled_returns_to_start :
    crowded.load [0x0007] = (.ok (), refilled) ∧
      refilled.next.cpu.pc.toNat = 1 ∧ refilled.next.cpu.a = 7 ∧
      ∃ last, refilled.next.afterCycles? 32767 = some last ∧ last.cpu.pc = 0 ∧ last.cpu.a = 0 ∧
        refilled.next.run 32767 = (.ok 32767, last) := by
  have room : [(0x0007 : Word)].length < 32768 := by decide
  obtain ⟨loaded, load_eq, returns⟩ := returns_to_start_past_program crowded room
  obtain rfl : refilled = loaded :=
    congrArg Prod.snd ((crowded.load_of_fits (by decide)).symm.trans load_eq)
  have pc_eq : refilled.next.cpu.pc.toNat = 1 := by
    decide +kernel
  have running : refilled.next.state = .running := by
    decide +kernel
  obtain ⟨-, last, reached, last_pc, last_a, -, -, -, cycles_eq, -, -, -, runs⟩ :=
    returns refilled.next rfl rfl pc_eq.ge (by omega)
  rw [pc_eq] at reached cycles_eq runs
  have counted : last.cycles ≤ maxCycles := by
    rw [cycles_eq]
    decide
  exact ⟨load_eq, pc_eq, by decide +kernel, last, reached, last_pc, last_a, runs running counted⟩

end Machine

end HackComputer
