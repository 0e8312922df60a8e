import HackComputer.Proofs.Debugger.Batch

/-!
# Faults under the debugger

A failed cycle ends continuous execution and leaves the machine as it was.  The
status reports it, except where a batch starts at a breakpoint whose instruction
fails: the test behind the cycle finds the machine still there, and the report
on the breakpoint takes the place of the report on the failure.
-/

namespace HackComputer

/-- No report on a breakpoint reads as a report on a failure. -/
theorem DebugStatus.text_stopped_ne (pc : Word) (error : MachineError) :
    (stopped pc).text ≠ "Error: " ++ error.message := by
  intro same
  have stopped_head : (stopped pc).text.toList.head? = some 'B' := by
    change ("Breakpoint at PC=" ++ toString pc.toNat).toList.head? = some 'B'
    rw [String.toList_append]
    rfl
  have failed_head : ("Error: " ++ error.message).toList.head? = some 'E' := by
    rw [String.toList_append]
    rfl
  rw [same, failed_head] at stopped_head
  contradiction

namespace Debugger

/-- A cycle of the batch fails: the batch comes to `last` with cycles left, where
it meets neither a breakpoint nor a halt, and the next cycle is refused. -/
def BatchFails (debugger : Debugger) (last : Machine) (error : MachineError) : Prop :=
  debugger.running = true ∧
    ∃ count < debugger.cyclesPerTick,
      BatchEnds debugger.breakpoints debugger.machine debugger.cyclesPerTick count last ∧
        ¬HitsBreakpoint debugger.breakpoints last count ∧ last.state ≠ .halted ∧
          last.step.1 = .error error

variable {debugger : Debugger}

theorem BatchResult.eq_of_failed {limit count : Nat} {last : Machine} {result : Debugger}
    {error : MachineError} (outcome : BatchResult debugger limit count last result)
    (passed : ¬HitsBreakpoint debugger.breakpoints last count) (unspent : count < limit)
    (goes_on : last.state ≠ .halted) (refused : last.step.1 = .error error) :
    result =
      { debugger with
        machine := last
        running := false
        status :=
          if last.cpu.pc ∈ debugger.breakpoints then .stopped last.cpu.pc else .failed error } := by
  cases outcome with
  | breakpoint hit => exact absurd hit passed
  | spent _ spent _ => exact absurd spent (Nat.ne_of_lt unspent)
  | halted _ _ halted => exact absurd halted goes_on
  | failed _ _ _ cause failed =>
      rw [failed] at refused
      obtain rfl : cause = error := Except.error.inj refused
      rfl

theorem tick_of_batchFails {last : Machine} {error : MachineError}
    (fails : debugger.BatchFails last error) :
    debugger.tick =
      { debugger with
        machine := last
        running := false
        status :=
          if last.cpu.pc ∈ debugger.breakpoints then .stopped last.cpu.pc else .failed error } := by
  obtain ⟨running, count, unspent, ends, passed, goes_on, refused⟩ := fails
  obtain ⟨_, _, ends', outcome⟩ := tickFor_spec debugger.cyclesPerTick debugger running
  obtain ⟨rfl, rfl⟩ := ends.unique ends'
  exact outcome.eq_of_failed passed unspent goes_on refused

/-- A batch only fails at a breakpoint if it starts there. -/
theorem BatchFails.eq_of_mem {last : Machine} {error : MachineError}
    (fails : debugger.BatchFails last error) (standing : last.cpu.pc ∈ debugger.breakpoints) :
    last = debugger.machine := by
  obtain ⟨-, count, -, ends, passed, -, -⟩ := fails
  cases count with
  | zero => exact (Option.some.inj ends.reached).symm
  | succ count => exact absurd ⟨Nat.succ_pos count, standing⟩ passed

/-- A failed cycle, of a single step or of a batch, ends continuous execution and
leaves the machine as it was.  A single step reports it in any case; a batch
reports it exactly if there is no breakpoint at the instruction that failed, and
so whenever the batch did not start there. -/
theorem fault_reported_iff_not_mem (debugger : Debugger) (error : MachineError) :
    (∀ after, debugger.machine.step = (.error error, after) →
      debugger.step.running = false ∧ debugger.step.machine = debugger.machine ∧
        debugger.step.status.text = "Error: " ++ error.message) ∧
    ∀ last, debugger.BatchFails last error →
      debugger.tick.running = false ∧ debugger.tick.machine = last ∧
        (debugger.tick.status.text = "Error: " ++ error.message ↔
          last.cpu.pc ∉ debugger.breakpoints) ∧
        (last.cpu.pc ∈ debugger.breakpoints → last = debugger.machine) := by
  constructor
  · intro after failed
    obtain ⟨-, -, rfl⟩ := Machine.step_eq_error_iff.1 failed
    rw [step_of_error failed]
    exact ⟨rfl, rfl, rfl⟩
  · intro last fails
    refine ⟨?_, ?_, ?_, fails.eq_of_mem⟩
    · rw [tick_of_batchFails fails]
    · rw [tick_of_batchFails fails]
    · rw [tick_of_batchFails fails]
      by_cases standing : last.cpu.pc ∈ debugger.breakpoints
      · simp only [standing, if_true, not_true, iff_false]
        exact DebugStatus.text_stopped_ne last.cpu.pc error
      · simp only [standing, if_false, not_false_iff, iff_true]
        rfl

/-- A debugger of the program `@24577, D=M` under the policy that forbids unmapped
accesses. -/
def faulty : Debugger :=
  holding [0x6001, 0xFC10] { unmapped := .fault } (by decide)

/-- The debugger `faulty` after a step, with a breakpoint set there, about to run. -/
def standing : Debugger :=
  faulty.step.toggleBreakpoint.run

/-- The batch of `standing` fails at its first cycle, and the status speaks of the
breakpoint. -/
theorem breakpoint_hides_fault :
    faulty = ofProgram [0x6001, 0xFC10] { unmapped := .fault } ∧
      ∃ error, standing.machine.step = (.error error, standing.machine) ∧
        standing.BatchFails standing.machine error ∧
        standing.tick.status = .stopped 1 ∧
        standing.tick.status.text ≠ "Error: " ++ error.message := by
  have faults : standing.machine.Faults := by
    decide +kernel
  have refused := Machine.step_of_faults standing.machine faults
  have status_eq : standing.tick.status = .stopped 1 := by
    decide +kernel
  have stops : standing.machine.StopsAt standing.cyclesPerTick 0 :=
    .inr (.inr ⟨_, congrArg Prod.fst refused⟩)
  refine ⟨(ofProgram_of_fits _ _).symm, standing.machine.fault, refused, ?_, status_eq, ?_⟩
  · exact ⟨rfl, 0, by decide +kernel, batchEnds_zero stops, not_hitsBreakpoint_zero,
      by decide +kernel, congrArg Prod.fst refused⟩
  · rw [status_eq]
    exact DebugStatus.text_stopped_ne 1 standing.machine.fault

end Debugger

end HackComputer
