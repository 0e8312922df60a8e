import HackComputer.Proofs.Alu
import HackComputer.Proofs.Instruction.Code
import HackComputer.Proofs.Machine.Bookkeeping
import HackComputer.Proofs.Machine.DetectedLoop

/-!
# Executing a program

What a running machine does next depends on its program and on a `Situation`: the
program counter, A, D and data memory.  `Leads` says that a program takes every machine
from one situation to another in a number of cycles.  There is one rule for each kind of
instruction, and rules are put together by `Leads.trans`, so that a program is executed
on symbolic operands without looking into `step` again.
-/

namespace HackComputer

/-- What the instructions of a program work on. -/
structure Situation where
  pc : Word
  a : Word
  d : Word
  memory : Memory

/-- The second operand of an instruction. -/
def Situation.operand (situation : Situation) : YSource → Word
  | .register => situation.a
  | .memory => situation.memory.word situation.a

namespace Machine

/-- The machine runs a program in a situation.  Idle loops are detected, and
unmapped accesses are ignored. -/
structure StandsAt (machine : Machine) (program : List Instruction) (situation : Situation) :
    Prop where
  executes : machine.Executes (program.map Instruction.encode)
  detects : machine.Detects
  ignores : machine.memory.unmapped = .ignore
  running : machine.state = .running
  pc_eq : machine.cpu.pc = situation.pc
  a_eq : machine.cpu.a = situation.a
  d_eq : machine.cpu.d = situation.d
  memory_eq : machine.memory = situation.memory

variable {machine : Machine} {program : List Instruction} {situation : Situation}

/-! ## One cycle -/

theorem StandsAt.decode_fetch (stands : machine.StandsAt program situation) {address : Word}
    (short : address.low15 = address) {instruction : Instruction}
    (found : program[address.toNat]? = some instruction) :
    Instruction.decode (machine.rom.fetch address) = .decode instruction.encode := by
  rw [stands.executes.fetch, short, List.getD_eq_getElem?_getD, List.getElem?_map, found]
  rfl

theorem StandsAt.instruction_eq (stands : machine.StandsAt program situation)
    {instruction : Instruction} (found : program[situation.pc.toNat]? = some instruction) :
    machine.instruction = .decode instruction.encode := by
  rw [← stands.pc_eq] at found
  exact stands.decode_fetch stands.executes.low15_pc found

theorem state_next_of_not_entersIdleLoop (released : machine.resetLine = false)
    (no_loop : machine.cycleInfo.entersIdleLoop machine.rom = false) :
    machine.next.state = machine.state := by
  simp only [next, RunState.next, released, no_loop, Bool.and_false, if_false, Bool.false_eq_true]

/-- A cycle that closes no idle loop leads to another situation. -/
theorem StandsAt.next (stands : machine.StandsAt program situation)
    (no_loop : machine.cycleInfo.entersIdleLoop machine.rom = false) :
    machine.next.StandsAt program
      ⟨machine.next.cpu.pc, machine.next.cpu.a, machine.next.cpu.d, machine.next.memory⟩ where
  executes := ⟨stands.executes.fetch, low15_pc_next⟩
  detects := stands.detects.next
  ignores := unmapped_next.trans stands.ignores
  running := by
    rw [state_next_of_not_entersIdleLoop stands.detects.released no_loop, stands.running]
  pc_eq := rfl
  a_eq := rfl
  d_eq := rfl
  memory_eq := rfl

theorem not_jumps_of_address {literal : Word} (found : machine.instruction = .address literal) :
    machine.cycleInfo.jumps = false := by
  rw [StepInfo.jumps, show machine.cycleInfo.instruction = _ from found]

/-- A cycle that does not jump closes no idle loop. -/
theorem not_entersIdleLoop_of_not_jumps (no_jump : machine.cycleInfo.jumps = false) :
    machine.cycleInfo.entersIdleLoop machine.rom = false := by
  simp only [StepInfo.entersIdleLoop, no_jump, Bool.false_and]

/-- A jump that lands neither on itself nor on the instruction before it closes no idle
loop. -/
theorem not_entersIdleLoop_of_elsewhere (not_self : machine.cpu.addressM ≠ machine.cpu.pc)
    (not_before : Word.low15 (machine.cpu.addressM + 1) ≠ machine.cpu.pc) :
    machine.cycleInfo.entersIdleLoop machine.rom = false := by
  rw [← Bool.not_eq_true, StepInfo.entersIdleLoop_eq_true_iff, cycleInfo_addressM]
  rintro ⟨-, -, -, same | ⟨same, -⟩⟩
  · exact not_self same
  · exact not_before same

section Compute

variable {pc a d : Word} {memory : Memory} {function : AluFunction} {source : YSource}
  {dest : Dest} {jump : Jump} {out : Word} {taken : Bool}

/-- What a compute instruction with a named function does, whether or not it closes an
idle loop. -/
theorem StandsAt.next_of_compute (stands : machine.StandsAt program ⟨pc, a, d, memory⟩)
    (found : program[pc.toNat]? = some (.compute ⟨source, function.flags, dest, jump⟩))
    (out_eq : function.apply d (Situation.operand ⟨pc, a, d, memory⟩ source) = out)
    (taken_eq : jump.isTaken (out == 0) out.msb = taken) :
    machine.cycleInfo.jumps = taken ∧
      machine.next.cpu.pc = (if taken then a.low15 else Word.low15 (pc + 1)) ∧
      machine.next.cpu.a = (if dest.a then out else a) ∧
      machine.next.cpu.d = (if dest.d then out else d) ∧
      machine.next.memory = (if dest.m then memory.store a out else memory) := by
  have instruction_eq := stands.instruction_eq found
  rw [Instruction.decode_encode_compute] at instruction_eq
  have address_eq : machine.cpu.addressM = a.low15 := congrArg Word.low15 stands.a_eq
  have result_eq : machine.out ⟨source, function.flags, dest, jump⟩ = out := by
    rw [← out_eq, ← Alu.result_flags, Machine.out, Compute.result, stands.d_eq, address_eq,
      Memory.word_low15, stands.a_eq, stands.memory_eq]
    cases source <;> rfl
  have jumpsOn_eq : Compute.jumpsOn ⟨source, function.flags, dest, jump⟩ out = taken := taken_eq
  have jumps_eq := cycleInfo_jumps_of_compute instruction_eq
  obtain ⟨a_next, d_next, pc_next, memory_next⟩ := Machine.next_of_compute instruction_eq
  rw [result_eq, jumpsOn_eq] at jumps_eq pc_next
  rw [stands.detects.released, if_neg Bool.false_ne_true, address_eq, stands.pc_eq] at pc_next
  rw [result_eq, stands.a_eq] at a_next
  rw [result_eq, stands.d_eq] at d_next
  rw [result_eq, address_eq, stands.memory_eq, Memory.store_low15] at memory_next
  exact ⟨jumps_eq, pc_next, a_next, d_next, memory_next⟩

/-- A taken jump that stores nothing halts the machine if it lands on itself, or on an
instruction in front of it that loads its own address. -/
theorem StandsAt.halts (stands : machine.StandsAt program ⟨pc, a, d, memory⟩)
    (found : program[pc.toNat]? =
      some (.compute ⟨.register, function.flags, ⟨false, false, false⟩, jump⟩))
    (taken : jump.isTaken (function.apply d a == 0) (function.apply d a).msb = true)
    (lands : a.low15 = pc ∨
      Word.low15 (a.low15 + 1) = pc ∧ program[a.low15.toNat]? = some (.address a.low15)) :
    ∃ info, machine.step = (.ok info, machine.next) ∧ machine.next.state = .halted ∧
      machine.next.cpu.pc = a.low15 ∧ machine.next.memory = memory := by
  have instruction_eq := stands.instruction_eq found
  rw [Instruction.decode_encode_compute] at instruction_eq
  obtain ⟨-, pc_next, -, -, memory_next⟩ := stands.next_of_compute found rfl taken
  have only_jumps : machine.cycleInfo.OnlyJumps :=
    ⟨_, instruction_eq, rfl, fun reads => YSource.noConfusion reads.1⟩
  have pc_eq : machine.cpu.pc = pc := stands.pc_eq
  refine ⟨_, step_of_ignore stands.ignores, ?_, pc_next, memory_next⟩
  apply halted_of_onlyJumps stands.detects only_jumps
  · rw [pc_next, pc_eq, if_pos rfl]
    rcases lands with same | ⟨before, -⟩
    · rw [same]
      exact (Word.low15_succ_ne pc).symm
    · rw [← before]
      exact (Word.low15_succ_succ_ne a.low15).symm
  · rw [pc_next, pc_eq, if_pos rfl]
    refine lands.imp_right fun ⟨before, loads⟩ => ⟨before, ?_⟩
    rw [stands.decode_fetch (Word.low15_low15 a) loads, Instruction.decode_encode_address,
      Word.low15_low15]

end Compute

end Machine

/-! ## Many cycles -/

/-- The program takes every machine from the first situation to the last in `count`
cycles. -/
def Leads (program : List Instruction) (count : Nat) (first last : Situation) : Prop :=
  ∀ machine : Machine, machine.StandsAt program first →
    ∃ after, machine.afterCycles? count = some after ∧ after.StandsAt program last

namespace Leads

open Machine

variable {program : List Instruction}

theorem trans {count more : Nat} {first middle last : Situation}
    (begins : Leads program count first middle) (ends : Leads program more middle last) :
    Leads program (count + more) first last := by
  intro machine stands
  obtain ⟨after, reached, stands'⟩ := begins machine stands
  obtain ⟨final, reached', stands''⟩ := ends after stands'
  refine ⟨final, ?_, stands''⟩
  rw [afterCycles?_add, reached, Option.bind_some, reached']

/-- What every machine comes to with its next cycle. -/
theorem of_next {first last : Situation}
    (next_stands : ∀ machine : Machine, machine.StandsAt program first →
      machine.next.StandsAt program last) : Leads program 1 first last := by
  intro machine stands
  exact ⟨machine.next, afterCycles?_succ_of_step (step_of_ignore stands.ignores) 0,
    next_stands machine stands⟩

variable {pc a d : Word} {memory : Memory}

/-- An address instruction loads its literal. -/
theorem address (literal : Word) (found : program[pc.toNat]? = some (.address literal)) :
    Leads program 1 ⟨pc, a, d, memory⟩ ⟨Word.low15 (pc + 1), literal.low15, d, memory⟩ := by
  refine of_next fun machine stands => ?_
  have instruction_eq := stands.instruction_eq found
  rw [Instruction.decode_encode_address] at instruction_eq
  obtain ⟨a_next, d_next, pc_next, memory_next⟩ := next_of_address instruction_eq
  rw [stands.detects.released, if_neg Bool.false_ne_true, stands.pc_eq] at pc_next
  have no_jump := not_jumps_of_address instruction_eq
  have stands_next := stands.next (not_entersIdleLoop_of_not_jumps no_jump)
  rwa [pc_next, a_next, d_next, memory_next, stands.d_eq, stands.memory_eq] at stands_next

/-- A compute instruction with a named function stores its result in its destinations, and
jumps if its condition holds of it.  A jump of this rule closes no idle loop. -/
theorem compute {function : AluFunction} {source : YSource} {dest : Dest} {jump : Jump}
    {out : Word} {taken : Bool}
    (found : program[pc.toNat]? = some (.compute ⟨source, function.flags, dest, jump⟩))
    (out_eq : function.apply d (Situation.operand ⟨pc, a, d, memory⟩ source) = out)
    (taken_eq : jump.isTaken (out == 0) out.msb = taken)
    (elsewhere : taken = true → a.low15 ≠ pc ∧ Word.low15 (a.low15 + 1) ≠ pc) :
    Leads program 1 ⟨pc, a, d, memory⟩
      ⟨if taken then a.low15 else Word.low15 (pc + 1), if dest.a then out else a,
        if dest.d then out else d, if dest.m then memory.store a out else memory⟩ := by
  refine of_next fun machine stands => ?_
  obtain ⟨jumps_eq, pc_next, a_next, d_next, memory_next⟩ :=
    stands.next_of_compute found out_eq taken_eq
  have address_eq : machine.cpu.addressM = a.low15 := congrArg Word.low15 stands.a_eq
  have pc_eq : machine.cpu.pc = pc := stands.pc_eq
  have no_loop : machine.cycleInfo.entersIdleLoop machine.rom = false := by
    cases taken with
    | false => exact not_entersIdleLoop_of_not_jumps jumps_eq
    | true =>
        rw [← address_eq, ← pc_eq] at elsewhere
        exact not_entersIdleLoop_of_elsewhere (elsewhere rfl).1 (elsewhere rfl).2
  have stands_next := stands.next no_loop
  rwa [pc_next, a_next, d_next, memory_next] at stands_next

/-- The two instructions of a line such as `@2, M=D+M`: an address instruction, and a
compute instruction that works at this address or, if `taken`, jumps to it. -/
theorem addressAndCompute {literal out : Word} {function : AluFunction} {source : YSource}
    {dest : Dest} {jump : Jump} {after : Situation} (taken : Bool)
    (loads : program[pc.toNat]? = some (.address literal))
    (computes : program[(Word.low15 (pc + 1)).toNat]? =
      some (.compute ⟨source, function.flags, dest, jump⟩))
    (out_eq : function.apply d
      (Situation.operand ⟨Word.low15 (pc + 1), literal.low15, d, memory⟩ source) = out)
    (taken_eq : jump.isTaken (out == 0) out.msb = taken)
    (elsewhere : taken = true → literal.low15.low15 ≠ Word.low15 (pc + 1) ∧
      Word.low15 (literal.low15.low15 + 1) ≠ Word.low15 (pc + 1))
    (after_eq : (⟨if taken then literal.low15.low15 else Word.low15 (Word.low15 (pc + 1) + 1),
      if dest.a then out else literal.low15, if dest.d then out else d,
      if dest.m then memory.store literal.low15 out else memory⟩ : Situation) = after) :
    Leads program 2 ⟨pc, a, d, memory⟩ after := by
  rw [← after_eq]
  exact (address literal loads).trans (compute computes out_eq taken_eq elsewhere)

end Leads

/-! ## Runs -/

namespace Machine

variable {machine middle last : Machine} {count : Nat}

/-- A halted machine whose reset line is released stays halted. -/
theorem halted_of_afterCycles? (released : machine.resetLine = false)
    (halted : machine.state = .halted) (reached : machine.afterCycles? count = some last) :
    last.state = .halted := by
  have kept := afterCycles?_preserves
    (fun machine => machine.resetLine = false ∧ machine.state = .halted) ?_ ⟨released, halted⟩
    reached
  · exact kept.2
  · rintro before info after ⟨released, halted⟩ stepped
    obtain ⟨-, -, rfl⟩ := step_eq_ok_iff.1 stepped
    exact ⟨released, RunState.next_eq_halted_iff.2 ⟨released, .inr halted⟩⟩

/-- A run ends where the machine halts for the first time: in the cycle after one that
it is still running at. -/
theorem run_of_halts (detects : machine.Detects)
    (reached : machine.afterCycles? count = some middle) (running : middle.state = .running)
    {info : StepInfo} (stepped : middle.step = (.ok info, last)) (halted : last.state = .halted)
    {budget : Nat} (within : count + 1 ≤ machine.allowance budget) :
    machine.run budget = (.ok (count + 1), last) := by
  have reached_last := afterCycles?_succ_eq_some_iff.2 ⟨middle, info, reached, stepped⟩
  obtain ⟨index, before, stop, stop_reached, stopped, ran⟩ :=
    runFor_of_halted_after reached_last halted within
  -- A run that stopped before would have found the machine halted all the way from there.
  have index_eq : index = count + 1 := by
    by_contra early
    have before := Nat.le_of_lt_succ (Nat.lt_of_le_of_ne before early)
    obtain ⟨rest, rfl⟩ := Nat.exists_eq_add_of_le before
    rw [afterCycles?_add, stop_reached, Option.bind_some] at reached
    have detects' := detects.of_afterCycles? stop_reached
    rw [halted_of_afterCycles? detects'.released stopped reached] at running
    contradiction
  subst index_eq
  obtain rfl := Option.some.inj (reached_last.symm.trans stop_reached)
  simp only [run_eq, ran, cycles_of_afterCycles? reached_last, Nat.add_sub_cancel_left]

end Machine

end HackComputer
