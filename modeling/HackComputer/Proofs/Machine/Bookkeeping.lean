import HackComputer.Proofs.Machine.History
import Mathlib.Data.List.DropRight

/-!
# Bookkeeping

A machine keeps a counter of its cycles, the last of them and whether it is halted.
Each of the three is cleared by its own occurrences: the counter by loads, the last
cycle by loads and restarts, being halted by these and by cycles under reset.  So
each is a function of the history since the last occurrence that clears it, and that
is what `Books` says.  Whether a cycle is under reset is told by the calls before it
that drive the reset line (`Operation.lineAfter`).
-/

namespace HackComputer

namespace Occurrence

/-- Is it a cycle? -/
def isCycle : Occurrence → Bool
  | .cycle .. => true
  | .loaded _ | .restarted => false

/-- Is it a cycle with the reset line released? -/
def isReleasedCycle : Occurrence → Bool
  | .cycle start _ => !start.resetLine
  | .loaded _ | .restarted => false

/-- Is it anything but a load? -/
def keepsProgram : Occurrence → Bool
  | .cycle .. | .restarted => true
  | .loaded _ => false

/-- What happened in the cycle. -/
def info? : Occurrence → Option StepInfo
  | .cycle _ info => some info
  | .loaded _ | .restarted => none

/-- Is it a cycle that closed an idle loop of the program it was executing? -/
def closesLoop : Occurrence → Bool
  | .cycle start info => info.entersIdleLoop start.rom
  | .loaded _ | .restarted => false

/-- The number of cycles since the last load. -/
def cyclesSinceLoad (history : List Occurrence) : Nat :=
  (history.rtakeWhile keepsProgram).countP isCycle

/-- The last cycle, if nothing but cycles came after the last load or restart and
there was one. -/
def lastInfo? (history : List Occurrence) : Option StepInfo :=
  (history.rtakeWhile isCycle).getLast?.bind info?

/-- Did a cycle close an idle loop since the last load, restart or cycle under
reset? -/
def ClosedLoop (history : List Occurrence) : Prop :=
  ∃ occurrence ∈ history.rtakeWhile isReleasedCycle, occurrence.closesLoop = true

variable (history : List Occurrence)

/-! ## One more occurrence -/

@[simp]
theorem cyclesSinceLoad_cycle (start : Machine) (info : StepInfo) :
    cyclesSinceLoad (history ++ [.cycle start info]) = cyclesSinceLoad history + 1 := by
  simp [cyclesSinceLoad, List.rtakeWhile_concat, keepsProgram, isCycle]

@[simp]
theorem cyclesSinceLoad_restarted :
    cyclesSinceLoad (history ++ [.restarted]) = cyclesSinceLoad history := by
  simp [cyclesSinceLoad, List.rtakeWhile_concat, keepsProgram, isCycle]

@[simp]
theorem cyclesSinceLoad_loaded (program : List Word) :
    cyclesSinceLoad (history ++ [.loaded program]) = 0 := by
  simp [cyclesSinceLoad, keepsProgram]

@[simp]
theorem lastInfo?_cycle (start : Machine) (info : StepInfo) :
    lastInfo? (history ++ [.cycle start info]) = some info := by
  simp [lastInfo?, List.rtakeWhile_concat, isCycle, info?]

@[simp]
theorem lastInfo?_restarted : lastInfo? (history ++ [.restarted]) = none := by
  simp [lastInfo?, isCycle]

@[simp]
theorem lastInfo?_loaded (program : List Word) :
    lastInfo? (history ++ [.loaded program]) = none := by
  simp [lastInfo?, isCycle]

theorem closedLoop_cycle_iff (start : Machine) (info : StepInfo) :
    ClosedLoop (history ++ [.cycle start info]) ↔
      start.resetLine = false ∧
        (info.entersIdleLoop start.rom = true ∨ ClosedLoop history) := by
  cases line : start.resetLine <;>
    simp [ClosedLoop, isReleasedCycle, closesLoop, line, or_and_right, exists_or, or_comm]

@[simp]
theorem not_closedLoop_restarted : ¬ClosedLoop (history ++ [.restarted]) := by
  simp [ClosedLoop, isReleasedCycle]

@[simp]
theorem not_closedLoop_loaded (program : List Word) :
    ¬ClosedLoop (history ++ [.loaded program]) := by
  simp [ClosedLoop, isReleasedCycle]

end Occurrence

open Occurrence

/-- A cycle halts the machine if it is detected to close an idle loop, and keeps it
halted unless the reset line is asserted. -/
theorem RunState.next_eq_halted_iff {state : RunState} {resetLine haltDetection : Bool} {rom : Rom}
    {info : StepInfo} :
    state.next resetLine haltDetection rom info = .halted ↔
      resetLine = false ∧
        (haltDetection = true ∧ info.entersIdleLoop rom = true ∨ state = .halted) := by
  cases resetLine with
  | true => simp [RunState.next]
  | false =>
      simp only [RunState.next, Bool.false_eq_true, if_false, true_and, ← Bool.and_eq_true]
      split <;> simp [*]

namespace Operation

/-- The reset line after an operation that finds it at `line`. -/
def drivenLine (line : Bool) : Operation → Bool
  | .stimulus (.setReset asserted) => asserted
  | .stimulus .reset => false
  | .stimulus .step | .stimulus (.setKeyboard _) | .stimulus (.poke ..) => line
  | .run _ | .load _ => line

/-- The reset line after a list of operations. -/
def lineAfter (line : Bool) (operations : List Operation) : Bool :=
  operations.foldl drivenLine line

theorem lineAfter_cons (line : Bool) (operation : Operation) (rest : List Operation) :
    lineAfter line (operation :: rest) = lineAfter (operation.drivenLine line) rest :=
  rfl

end Operation

namespace Machine

/-- The bookkeeping of a machine of a configuration agrees with its history. -/
structure Books (config : Config) (history : List Occurrence) (machine : Machine) : Prop where
  haltDetection_eq : machine.haltDetection = config.haltDetection
  cycles_eq : machine.cycles = cyclesSinceLoad history
  lastStep_eq : machine.lastStep = lastInfo? history
  /-- The last cycle led to where the machine is, from a word of its program. -/
  last_fits : ∀ info, machine.lastStep = some info →
    info.outputs.pc = machine.cpu.pc ∧ info.word = machine.rom.fetch info.pc ∧
      info.instruction = .decode info.word
  halted_iff : machine.state = .halted ↔ config.haltDetection = true ∧ ClosedLoop history

theorem books_ofConfig (config : Config) : Books config [] (ofConfig config) where
  haltDetection_eq := rfl
  cycles_eq := rfl
  lastStep_eq := rfl
  last_fits info last := absurd (last : none = some info) (Option.some_ne_none info).symm
  halted_iff := by simp [ofConfig, ClosedLoop]

variable {config : Config} {history : List Occurrence} {machine : Machine}

theorem Books.next (books : Books config history machine) :
    Books config (history ++ [.cycle machine machine.cycleInfo]) machine.next where
  haltDetection_eq := books.haltDetection_eq
  cycles_eq := by
    rw [cyclesSinceLoad_cycle, ← books.cycles_eq]
    rfl
  lastStep_eq := (lastInfo?_cycle history machine machine.cycleInfo).symm
  last_fits := by
    intro info last
    obtain rfl := Option.some.inj last
    exact ⟨rfl, rfl, rfl⟩
  halted_iff := by
    rw [closedLoop_cycle_iff, Machine.next, RunState.next_eq_halted_iff, books.halted_iff,
      books.haltDetection_eq]
    tauto

/-- Every occurrence keeps the bookkeeping in agreement with the history. -/
theorem tracks_books (config : Config) : Tracks (Books config) where
  cycle books stepped := by
    obtain ⟨-, rfl, rfl⟩ := step_eq_ok_iff.1 stepped
    exact books.next
  loaded books loaded := by
    obtain ⟨fits, rfl⟩ := load_eq_ok_iff.1 loaded
    exact
      { haltDetection_eq := books.haltDetection_eq
        cycles_eq := (cyclesSinceLoad_loaded _ _).symm
        lastStep_eq := (lastInfo?_loaded _ _).symm
        last_fits info last := absurd (last : none = some info) (Option.some_ne_none info).symm
        halted_iff := by simp [withProgram] }
  restarted books :=
    { haltDetection_eq := books.haltDetection_eq
      cycles_eq := books.cycles_eq.trans (cyclesSinceLoad_restarted _).symm
      lastStep_eq := (lastInfo?_restarted _).symm
      last_fits info last := absurd (last : none = some info) (Option.some_ne_none info).symm
      halted_iff := by simp [reset] }
  input books _ _ :=
    ⟨books.haltDetection_eq, books.cycles_eq, books.lastStep_eq, books.last_fits,
      books.halted_iff⟩

theorem poke_eq (address value : Word) :
    machine.poke address value =
      if address.toNat < keyboardAddress then
        (.ok (), { machine with memory := machine.memory.store address value })
      else (.error (.addressOutOfRange address), machine) := by
  rw [poke, Memory.poke_eq]
  by_cases below : address.toNat < keyboardAddress
  · simp only [if_pos below]
  · simp only [if_neg below]

/-- A failed operation that is no run changes nothing. -/
theorem eq_of_operate_eq_error {operation : Operation} {error : MachineError} {last : Machine}
    (failed : machine.operate operation = (.error error, last))
    (no_run : operation.isRun = false) : last = machine := by
  cases operation with
  | run budget => contradiction
  | load program => exact (load_eq_error_iff.1 failed).2.2
  | stimulus stimulus =>
      cases stimulus with
      | step =>
          have stuck : machine.step = (.error error, last) := report_eq_error_iff.1 failed
          exact (step_eq_error_iff.1 stuck).2.2
      | setKeyboard key => cases failed
      | setReset asserted => cases failed
      | poke address value =>
          simp only [operate, respond, poke_eq] at failed
          split at failed
          · cases failed
          · exact (Prod.mk.inj failed).2.symm
      | reset => cases failed

/-! ## The reset line -/

@[simp]
theorem resetLine_step (machine : Machine) : machine.step.2.resetLine = machine.resetLine := by
  by_cases faults : machine.Faults
  · rw [step_of_faults machine faults]
  · rw [step_of_not_faults machine faults]
    rfl

@[simp]
theorem resetLine_load (machine : Machine) (program : List Word) :
    (machine.load program).2.resetLine = machine.resetLine := by
  rw [load]
  split <;> rfl

/-- The line is driven by the calls that set it and released by a restart; nothing that
the machine executes or is loaded with changes it. -/
theorem resetLine_operate (machine : Machine) (operation : Operation) :
    (machine.operate operation).2.resetLine = operation.drivenLine machine.resetLine := by
  cases operation with
  | run budget =>
      exact run_preserves (fun after => after.resetLine = machine.resetLine)
        (fun after same => (resetLine_step after).trans same) budget rfl
  | load program => exact resetLine_load machine program
  | stimulus stimulus =>
      cases stimulus with
      | step => exact resetLine_step machine
      | setKeyboard key => rfl
      | setReset asserted => rfl
      | poke address value => rfl
      | reset => rfl

theorem resetLine_after (machine : Machine) (operations : List Operation) :
    (machine.after operations).resetLine = Operation.lineAfter machine.resetLine operations := by
  induction operations generalizing machine with
  | nil => rfl
  | cons operation rest inductionHypothesis =>
      rw [after_cons, inductionHypothesis, resetLine_operate, Operation.lineAfter_cons]

theorem resetLine_of_mem_cyclesFor {limit : Nat} {start : Machine} {info : StepInfo}
    (happens : .cycle start info ∈ cyclesFor limit machine) :
    start.resetLine = machine.resetLine := by
  induction limit generalizing machine with
  | zero => contradiction
  | succ limit inductionHypothesis =>
      rw [cyclesFor] at happens
      split at happens
      · contradiction
      · rcases stepped : machine.step with ⟨error | info', after⟩
        · rw [stepped] at happens
          contradiction
        · rw [stepped] at happens
          have kept := resetLine_step machine
          rw [stepped] at kept
          rcases List.mem_cons.1 happens with first | later
          · cases first
            rfl
          · exact (inductionHypothesis later).trans kept

/-- All cycles of an operation begin with the reset line as the operation finds it. -/
theorem resetLine_of_mem_occurrences {operation : Operation} {start : Machine} {info : StepInfo}
    (happens : .cycle start info ∈ machine.occurrences operation) :
    start.resetLine = machine.resetLine := by
  cases operation with
  | run budget => exact resetLine_of_mem_cyclesFor happens
  | load program =>
      rw [occurrences] at happens
      split at happens <;> simp at happens
  | stimulus stimulus =>
      cases stimulus with
      | step =>
          rw [occurrences, cycle?] at happens
          split at happens
          · cases List.mem_singleton.1 happens
            rfl
          · contradiction
      | setKeyboard key => contradiction
      | setReset asserted => contradiction
      | poke address value => contradiction
      | reset => simp [occurrences] at happens

/-- After any operations on a new machine, its bookkeeping is told by its history.
The counter has the cycles since the last load.  The last cycle is there if nothing
else came since the last load or restart; it led to the machine's program counter,
from a word of its program.  The machine is halted if it detects and a cycle since the
last load, restart or cycle under reset closed an idle loop.  A cycle is under reset if
the calls before its operation left the reset line asserted.  A failed step, load or poke
changes nothing. -/
theorem books_follow_history (config : Config) (operations : List Operation) :
    let history := (ofConfig config).history operations
    let machine := (ofConfig config).after operations
    (machine.resetLine = Operation.lineAfter false operations ∧
      ∀ before operation rest, operations = before ++ operation :: rest →
        ∀ start info, .cycle start info ∈ ((ofConfig config).after before).occurrences operation →
          start.resetLine = Operation.lineAfter false before) ∧
    machine.cycles = cyclesSinceLoad history ∧
    machine.lastStep = lastInfo? history ∧
    (∀ info, machine.lastStep = some info →
      info.outputs.pc = machine.cpu.pc ∧ info.word = machine.rom.fetch info.pc ∧
        info.instruction = .decode info.word) ∧
    (machine.state = .halted ↔ config.haltDetection = true ∧ ClosedLoop history) ∧
    ∀ operation error last, machine.operate operation = (.error error, last) →
      operation.isRun = false → last = machine := by
  have books := (tracks_books config).after operations (books_ofConfig config)
  rw [List.nil_append] at books
  refine ⟨⟨resetLine_after _ operations, ?_⟩, books.cycles_eq, books.lastStep_eq, books.last_fits,
    books.halted_iff, fun _ _ _ failed no_run => eq_of_operate_eq_error failed no_run⟩
  intro before operation rest _ start info happens
  exact (resetLine_of_mem_occurrences happens).trans (resetLine_after _ before)

/-- A new machine with a jump to itself as its program. -/
def jumpingInPlace : Machine :=
  (ofConfig {}).withProgram [0xEA87] (by decide)

/-- The jump is loaded and executed under reset. -/
def jumpUnderReset : List Operation :=
  [.load [0xEA87], .stimulus (.setReset true), .stimulus .step]

/-- Then the line is released and the machine run. -/
def jumpReleased : List Operation :=
  jumpUnderReset ++ [.stimulus (.setReset false), .run 5]

/-- Under reset the jump does not halt the machine; with the line released, the run halts
after one cycle of it. -/
theorem jump_halts_once_released :
    (((ofConfig {}).after jumpUnderReset).resetLine = true ∧
      ((ofConfig {}).after jumpUnderReset).cycles = 1 ∧
      ((ofConfig {}).after jumpUnderReset).state ≠ .halted) ∧
    ((ofConfig {}).after jumpReleased).resetLine = false ∧
    ((ofConfig {}).after jumpReleased).cycles = 2 ∧
    ((ofConfig {}).after jumpReleased).state = .halted := by
  have held_history : (ofConfig {}).history jumpUnderReset =
      .loaded [0xEA87] :: jumpingInPlace.history
        [.stimulus (.setReset true), .stimulus .step] :=
    history_load_cons _ _ _
  have released_history : (ofConfig {}).history jumpReleased =
      .loaded [0xEA87] :: jumpingInPlace.history
        [.stimulus (.setReset true), .stimulus .step, .stimulus (.setReset false), .run 5] :=
    history_load_cons _ _ _
  obtain ⟨⟨held_line, -⟩, held_cycles, -, -, held_halted_iff, -⟩ :=
    books_follow_history {} jumpUnderReset
  obtain ⟨⟨line, -⟩, cycles, -, -, halted_iff, -⟩ := books_follow_history {} jumpReleased
  rw [held_history] at held_cycles held_halted_iff
  rw [released_history] at cycles halted_iff
  rw [ClosedLoop] at held_halted_iff halted_iff
  refine ⟨⟨held_line, ?_, ?_⟩, line, ?_, ?_⟩
  · rw [held_cycles]
    decide +kernel
  · rw [ne_eq, held_halted_iff]
    decide +kernel
  · rw [cycles]
    decide +kernel
  · rw [halted_iff]
    decide +kernel

end Machine

end HackComputer
