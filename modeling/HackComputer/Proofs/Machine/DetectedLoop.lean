import HackComputer.Proofs.Machine.IdleLoop

/-!
# Detected loops

A program that is done goes round a loop that only jumps: a jump to itself, or a
jump back to the address instruction in front of it.  Detection looks at one
cycle, and `GoesRound` at where the program counter comes back to; here is the
direction from the second to the first.  The program counter can only come back
by a taken jump, because counting on leads one or two addresses further, also
across the end of program memory.
-/

namespace HackComputer

/-- Counting on leaves every address. -/
theorem Word.low15_succ_ne (address : Word) : low15 (address + 1) ≠ address := by
  intro same
  have same := congrArg BitVec.toNat same
  rw [toNat_low15_succ] at same
  omega

/-- Counting on twice leaves every address. -/
theorem Word.low15_succ_succ_ne (address : Word) :
    low15 (low15 (address + 1) + 1) ≠ address := by
  intro same
  have same := congrArg BitVec.toNat same
  rw [toNat_low15_succ, toNat_low15_succ] at same
  omega

/-- A literal of an address instruction has fifteen bits. -/
theorem Instruction.low15_of_decode_eq_address {word literal : Word}
    (found : decode word = .address literal) : literal.low15 = literal := by
  rw [decode] at found
  split at found
  · contradiction
  · rw [← Instruction.address.inj found, Word.low15_low15]

/-- The cycle can have done nothing but jump: its instruction computes, stores
nothing and does not take its operand from the keyboard. -/
def StepInfo.OnlyJumps (info : StepInfo) : Prop :=
  ∃ fields, info.instruction = .compute fields ∧ fields.dest = ⟨false, false, false⟩ ∧
    ¬(fields.ySource = .memory ∧ info.outputs.addressM.toNat = keyboardAddress)

namespace Machine

/-- The machine goes once round a loop that does nothing but jump: it is back at
its program counter after `length` successful cycles, as `last`. -/
inductive GoesRound (machine : Machine) : Nat → Machine → Prop where
  /-- One cycle, at an instruction that only jumps. -/
  | jump {info : StepInfo} {last : Machine} (stepped : machine.step = (.ok info, last))
      (jumps : info.OnlyJumps) (back : last.cpu.pc = machine.cpu.pc) : GoesRound machine 1 last
  /-- Two cycles, at an address instruction and then at one that only jumps. -/
  | loadAndJump {literal : Word} {first second : StepInfo} {middle last : Machine}
      (loaded : machine.step = (.ok first, middle)) (address : first.instruction = .address literal)
      (stepped : middle.step = (.ok second, last)) (jumps : second.OnlyJumps)
      (back : last.cpu.pc = machine.cpu.pc) : GoesRound machine 2 last

/-- What a machine needs to have its idle loops detected. -/
structure Detects (machine : Machine) : Prop where
  detecting : machine.haltDetection = true
  released : machine.resetLine = false

variable {machine last : Machine}

theorem Detects.next (detects : machine.Detects) : machine.next.Detects :=
  ⟨detects.detecting, detects.released⟩

theorem Detects.of_step (detects : machine.Detects) {info : StepInfo}
    (stepped : machine.step = (.ok info, last)) : last.Detects := by
  obtain ⟨-, -, rfl⟩ := step_eq_ok_iff.1 stepped
  exact detects.next

theorem Detects.of_afterCycles? {count : Nat} (detects : machine.Detects)
    (reached : machine.afterCycles? count = some last) : last.Detects :=
  afterCycles?_preserves Detects (fun _ _ _ detects stepped => detects.of_step stepped) detects
    reached

/-! ## From coming back to being halted -/

theorem state_next_of_entersIdleLoop (detects : machine.Detects)
    (idle : machine.cycleInfo.entersIdleLoop machine.rom = true) :
    machine.next.state = .halted := by
  simp only [next, RunState.next, detects.released, detects.detecting, idle, Bool.true_and, if_true,
    if_false, Bool.false_eq_true]

theorem readsKeyboard_of_onlyJumps {info : StepInfo}
    (low15_address : info.outputs.addressM.low15 = info.outputs.addressM)
    (jumps : info.OnlyJumps) : info.readsKeyboard = false := by
  obtain ⟨fields, found, -, no_key⟩ := jumps
  by_contra reads
  rw [Bool.not_eq_false, StepInfo.readsKeyboard, found, Bool.and_eq_true, beq_iff_eq,
    Location.decode_eq_keyboard_iff, low15_address] at reads
  exact no_key ⟨beq_iff_eq.1 reads.1, reads.2⟩

theorem storesNothing_of_onlyJumps {info : StepInfo} (jumps : info.OnlyJumps) :
    info.storesNothing = true := by
  obtain ⟨fields, found, dest_eq, -⟩ := jumps
  simp only [StepInfo.storesNothing, found, dest_eq]
  rfl

/-- An instruction that only jumps and does not lead to the next address jumps. -/
theorem jumps_of_pc_next_ne (detects : machine.Detects) (jumps : machine.cycleInfo.OnlyJumps)
    (elsewhere : machine.next.cpu.pc ≠ Word.low15 (machine.cpu.pc + 1)) :
    machine.cycleInfo.jumps = true ∧ machine.next.cpu.pc = machine.cpu.addressM := by
  obtain ⟨fields, found, -, -⟩ := jumps
  obtain ⟨-, -, pc_next, -⟩ := next_of_compute found
  rw [detects.released, if_neg Bool.false_ne_true] at pc_next
  have taken : fields.jumpsOn (machine.out fields) = true := by
    by_contra not_taken
    rw [if_neg not_taken] at pc_next
    exact elsewhere pc_next
  rw [if_pos taken] at pc_next
  exact ⟨(cycleInfo_jumps_of_compute found).trans taken, pc_next⟩

/-- A jump to itself, or to an instruction just before it that loads its target,
halts the machine. -/
theorem halted_of_onlyJumps (detects : machine.Detects) (jumps : machine.cycleInfo.OnlyJumps)
    (elsewhere : machine.next.cpu.pc ≠ Word.low15 (machine.cpu.pc + 1))
    (lands : machine.next.cpu.pc = machine.cpu.pc ∨
      Word.low15 (machine.next.cpu.pc + 1) = machine.cpu.pc ∧
        Instruction.decode (machine.rom.fetch machine.next.cpu.pc) =
          .address machine.next.cpu.pc) :
    machine.next.state = .halted := by
  obtain ⟨taken, pc_next⟩ := jumps_of_pc_next_ne detects jumps elsewhere
  have no_key : machine.cycleInfo.readsKeyboard = false :=
    readsKeyboard_of_onlyJumps (by rw [cycleInfo_addressM, addressM_low15]) jumps
  apply state_next_of_entersIdleLoop detects
  rw [StepInfo.entersIdleLoop_eq_true_iff, cycleInfo_addressM, ← pc_next]
  exact ⟨taken, storesNothing_of_onlyJumps jumps, no_key, lands⟩

/-- A machine that has gone round a loop that only jumps is halted. -/
theorem GoesRound.halted {length : Nat} (detects : machine.Detects)
    (round : machine.GoesRound length last) : last.state = .halted := by
  cases round with
  | jump stepped jumps back =>
      obtain ⟨-, rfl, rfl⟩ := step_eq_ok_iff.1 stepped
      refine halted_of_onlyJumps detects jumps ?_ (.inl back)
      rw [back]
      exact (Word.low15_succ_ne _).symm
  | loadAndJump loaded address stepped jumps back =>
      obtain ⟨-, rfl, rfl⟩ := step_eq_ok_iff.1 loaded
      obtain ⟨-, rfl, rfl⟩ := step_eq_ok_iff.1 stepped
      obtain ⟨a_next, -, pc_next, -⟩ := next_of_address address
      rw [detects.released, if_neg Bool.false_ne_true] at pc_next
      have elsewhere : machine.next.next.cpu.pc ≠ Word.low15 (machine.next.cpu.pc + 1) := by
        rw [back, pc_next]
        exact (Word.low15_succ_succ_ne _).symm
      -- The jump goes to what the address instruction has loaded, and it is back
      -- at that instruction, so the instruction has loaded its own address.
      obtain ⟨-, target_eq⟩ := jumps_of_pc_next_ne detects.next jumps elsewhere
      rw [back, Cpu.addressM, a_next, Instruction.low15_of_decode_eq_address address] at target_eq
      refine halted_of_onlyJumps detects.next jumps elsewhere (.inr ⟨?_, ?_⟩)
      · rw [back, pc_next]
      · rw [back]
        exact address.trans (congrArg Instruction.address target_eq.symm)

theorem GoesRound.reached {length : Nat} (round : machine.GoesRound length last) :
    machine.afterCycles? length = some last := by
  cases round with
  | jump stepped jumps back => exact afterCycles?_succ_of_step stepped 0
  | loadAndJump loaded address stepped jumps back =>
      exact (afterCycles?_succ_of_step loaded 1).trans (afterCycles?_succ_of_step stepped 0)

/-- Detection finds every loop that only jumps: a machine that has gone round one is
halted.  So a run that comes to such a loop, after any number of cycles, stops in it
at the latest when it has gone round once, if its budget and the cycle counter go so
far. -/
theorem halted_after_goesRound (machine : Machine) (detects : machine.Detects) :
    (∀ length last, machine.GoesRound length last → last.state = .halted) ∧
    ∀ count start length last, machine.afterCycles? count = some start →
      start.GoesRound length last →
        ∀ budget, count + length ≤ budget → machine.cycles + (count + length) ≤ maxCycles →
          ∃ index stop, index ≤ count + length ∧ machine.run budget = (.ok index, stop) ∧
            stop.state = .halted := by
  constructor
  · intro length last round
    exact round.halted detects
  · intro count start length last reached round budget affordable counted
    have halted := round.halted (detects.of_afterCycles? reached)
    have reached_last : machine.afterCycles? (count + length) = some last := by
      rw [afterCycles?_add, reached]
      exact round.reached
    have within : count + length ≤ machine.allowance budget := by
      rw [allowance]
      omega
    obtain ⟨index, before, stop, stop_reached, stopped, ran⟩ :=
      runFor_of_halted_after reached_last halted within
    refine ⟨index, stop, before, ?_, stopped⟩
    simp only [run_eq, ran, cycles_of_afterCycles? stop_reached, Nat.add_sub_cancel_left]

/-- A machine whose program jumps to its end and idles there: `@2, 0;JMP, @2, 0;JMP`.
The first jump has the same target and closes no loop. -/
def jumpingAhead : Machine :=
  ofProgram [0x0002, 0xEA87, 0x0002, 0xEA87] (by decide)

/-- A run of `jumpingAhead` passes the first jump and stops after the second. -/
theorem run_stops_at_second_jump :
    jumpingAhead.Detects ∧ ∃ start last stop, jumpingAhead.afterCycles? 2 = some start ∧
      start.GoesRound 2 last ∧ jumpingAhead.run 100 = (.ok 4, stop) ∧ stop.state = .halted := by
  have first : jumpingAhead.step = (.ok _, jumpingAhead.next) := step_of_ignore rfl
  have second : jumpingAhead.next.step = (.ok _, jumpingAhead.next.next) :=
    step_of_ignore unmapped_next
  have third : jumpingAhead.next.next.step = (.ok _, jumpingAhead.next.next.next) :=
    step_of_ignore (unmapped_next.trans unmapped_next)
  have fourth : jumpingAhead.next.next.next.step = (.ok _, jumpingAhead.next.next.next.next) :=
    step_of_ignore (unmapped_next.trans (unmapped_next.trans unmapped_next))
  have reached : jumpingAhead.afterCycles? 2 = some jumpingAhead.next.next := by
    rw [afterCycles?_succ_of_step first, afterCycles?_succ_of_step second, afterCycles?]
  have address : jumpingAhead.next.next.cycleInfo.instruction = .address 2 := by
    decide +kernel
  have jumps : jumpingAhead.next.next.next.cycleInfo.OnlyJumps :=
    ⟨⟨.register, .ofField 0b101010, ⟨false, false, false⟩, ⟨true, true, true⟩⟩,
      by decide +kernel, rfl, fun reads => YSource.noConfusion reads.1⟩
  have round : jumpingAhead.next.next.GoesRound 2 jumpingAhead.next.next.next.next :=
    .loadAndJump third address fourth jumps (by decide +kernel)
  have detects : jumpingAhead.Detects := ⟨rfl, rfl⟩
  obtain ⟨index, stop, -, ran, halted⟩ := (halted_after_goesRound jumpingAhead detects).2 2 _ 2 _
    reached round 100 (by decide) (by decide)
  have index_eq : (jumpingAhead.run 100).1 = .ok 4 := by
    rw [run_eq]
    rfl
  rw [ran] at index_eq
  obtain rfl : index = 4 := Except.ok.inj index_eq
  exact ⟨detects, _, _, stop, reached, round, ran, halted⟩

end Machine

end HackComputer
