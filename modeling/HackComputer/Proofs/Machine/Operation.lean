import HackComputer.Proofs.Machine.Run
import HackComputer.Proofs.Machine.Stimulus
import HackComputer.Proofs.Memory.Program

/-!
# Operations on a machine

An `Operation` is a stimulus, a bounded run or the loading of a program.  What
holds of a machine after a list of operations follows from what one operation
keeps, and what a run keeps from what one cycle keeps.  The invariant derived
here is `Executes`: the machine has a certain program, and its program counter
stays on the address bus.
-/

namespace HackComputer

/-- What can be done to a machine. -/
inductive Operation where
  | stimulus (stimulus : Stimulus)
  /-- A run of at most `budget` cycles. -/
  | run (budget : Nat)
  | load (program : List Word)
  deriving DecidableEq, Repr

namespace Operation

/-- Does the operation execute instructions? -/
def isClocked : Operation → Bool
  | .stimulus .step | .run _ => true
  | .stimulus _ | .load _ => false

/-- Does the operation leave the program in its place? -/
def keepsProgram : Operation → Bool
  | .stimulus _ | .run _ => true
  | .load _ => false

/-- Is the operation a run?  Only runs look at whether the machine is halted. -/
def isRun : Operation → Bool
  | .run _ => true
  | .stimulus _ | .load _ => false

theorem keepsProgram_of_isClocked {operation : Operation} (clocked : operation.isClocked = true) :
    operation.keepsProgram = true := by
  cases operation with
  | stimulus stimulus => rfl
  | run budget => rfl
  | load program => contradiction

end Operation

namespace Machine

/-- The report on an operation, and the machine after it. -/
def operate (machine : Machine) : Operation → Report × Machine
  | .stimulus stimulus => machine.respond stimulus
  | .run budget => ((machine.run budget).1.map fun _ => (), (machine.run budget).2)
  | .load program => machine.load program

/-- The machine after a list of operations.  One that fails does not end the
list. -/
def after (machine : Machine) (operations : List Operation) : Machine :=
  operations.foldl (fun machine operation => (machine.operate operation).2) machine

variable {machine : Machine}

theorem after_cons (operation : Operation) (rest : List Operation) :
    machine.after (operation :: rest) = (machine.operate operation).2.after rest :=
  rfl

/-- What every operation of a list keeps, the list keeps. -/
theorem after_preserves (Inv : Machine → Prop) {operations : List Operation}
    (kept : ∀ machine, Inv machine → ∀ operation ∈ operations, Inv (machine.operate operation).2)
    (start : Inv machine) : Inv (machine.after operations) := by
  induction operations generalizing machine with
  | nil => exact start
  | cons operation rest inductionHypothesis =>
      exact inductionHypothesis
        (fun machine inv operation member => kept machine inv operation
          (List.mem_cons_of_mem _ member))
        (kept machine start operation List.mem_cons_self)

/-- What every cycle keeps, a run keeps. -/
theorem runFor_preserves (Inv : Machine → Prop)
    (kept : ∀ machine : Machine, Inv machine → Inv machine.step.2) (limit : Nat)
    (start : Inv machine) : Inv (runFor limit machine).2 := by
  induction limit generalizing machine with
  | zero => exact start
  | succ limit inductionHypothesis =>
      have stepped := kept machine start
      rw [runFor]
      split
      · exact start
      · rcases step_eq : machine.step with ⟨error | info, after⟩
        · rwa [step_eq] at stepped
        · rw [step_eq] at stepped
          exact inductionHypothesis stepped

theorem run_snd (budget : Nat) :
    (machine.run budget).2 = (runFor (machine.allowance budget) machine).2 := by
  rw [run_eq]
  rcases runFor (machine.allowance budget) machine with ⟨error | ⟨⟩, after⟩
  · rfl
  · rfl

theorem run_preserves (Inv : Machine → Prop)
    (kept : ∀ machine : Machine, Inv machine → Inv machine.step.2) (budget : Nat)
    (start : Inv machine) : Inv (machine.run budget).2 := by
  rw [run_snd]
  exact runFor_preserves Inv kept _ start

/-- A run that fails ends at a machine whose next cycle fails. -/
theorem step_of_run_eq_error {budget : Nat} {error : MachineError} {last : Machine}
    (failed : machine.run budget = (.error error, last)) : last.step = (.error error, last) := by
  obtain ⟨count, final, -, ⟨-, ran⟩ | ⟨-, cause, stuck, ran⟩⟩ := run_spec budget machine
  · rw [failed] at ran
    cases ran
  · rw [failed] at ran
    obtain ⟨cause_eq, rfl⟩ := Prod.mk.inj ran
    rw [Except.error.inj cause_eq]
    exact stuck

theorem report_eq_error_iff {Result : Type} {answer : Except MachineError Result × Machine}
    {error : MachineError} {last : Machine} :
    (answer.1.map fun _ => (), answer.2) = (.error error, last) ↔
      answer = (.error error, last) := by
  rcases answer with ⟨cause | result, after⟩ <;> simp [Except.map]

/-- A failed operation that executes instructions leaves a machine whose next
cycle fails. -/
theorem step_of_operate_eq_error {operation : Operation} (clocked : operation.isClocked = true)
    {error : MachineError} {last : Machine}
    (failed : machine.operate operation = (.error error, last)) :
    last.step = (.error error, last) := by
  cases operation with
  | load program => contradiction
  | run budget => exact step_of_run_eq_error (report_eq_error_iff.1 failed)
  | stimulus stimulus =>
      cases stimulus with
      | step =>
          have stuck : machine.step = (.error error, last) := report_eq_error_iff.1 failed
          obtain ⟨-, -, rfl⟩ := step_eq_error_iff.1 stuck
          exact stuck
      | setKeyboard key => contradiction
      | setReset asserted => contradiction
      | poke address value => contradiction
      | reset => contradiction

/-! ## Machines that execute a program -/

/-- The machine executes this program: its program memory holds it and zeros
after it, and the program counter has no more than fifteen bits. -/
structure Executes (machine : Machine) (program : List Word) : Prop where
  fetch : ∀ pc, machine.rom.fetch pc = program.getD pc.low15.toNat 0
  low15_pc : machine.cpu.pc.low15 = machine.cpu.pc

variable {program : List Word}

theorem executes_of_load (fits : program.length ≤ romSize) :
    (machine.load program).2.Executes program := by
  rw [machine.load_of_fits fits]
  exact ⟨Rom.fetch_holding fits, rfl⟩

theorem Executes.step (executes : machine.Executes program) : machine.step.2.Executes program := by
  by_cases faults : machine.Faults
  · rw [step_of_faults machine faults]
    exact executes
  · rw [step_of_not_faults machine faults]
    exact ⟨executes.fetch, low15_pc_next⟩

theorem Executes.respond (executes : machine.Executes program) (stimulus : Stimulus) :
    (machine.respond stimulus).2.Executes program := by
  cases stimulus with
  | step => exact executes.step
  | setKeyboard key => exact ⟨executes.fetch, executes.low15_pc⟩
  | setReset asserted => exact ⟨executes.fetch, executes.low15_pc⟩
  | poke address value => exact ⟨executes.fetch, executes.low15_pc⟩
  | reset => exact ⟨executes.fetch, rfl⟩

theorem Executes.run (executes : machine.Executes program) (budget : Nat) :
    (machine.run budget).2.Executes program :=
  run_preserves (fun machine => machine.Executes program) (fun _ before => before.step) budget
    executes

theorem Executes.operate (executes : machine.Executes program) {operation : Operation}
    (keeps : operation.keepsProgram = true) : (machine.operate operation).2.Executes program := by
  cases operation with
  | stimulus stimulus => exact executes.respond stimulus
  | run budget => exact executes.run budget
  | load program => contradiction

/-- Only loading changes what a machine executes. -/
theorem Executes.after (executes : machine.Executes program) {operations : List Operation}
    (keep : ∀ operation ∈ operations, operation.keepsProgram = true) :
    (machine.after operations).Executes program :=
  after_preserves (fun machine => machine.Executes program)
    (fun _ before operation member => before.operate (keep operation member)) executes

/-- The zeros after a program are address instructions, so what faults is an
instruction of the program. -/
theorem Executes.getElem?_pc_of_faults (executes : machine.Executes program)
    (faults : machine.Faults) :
    program[machine.cpu.pc.toNat]? = some (machine.rom.fetch machine.cpu.pc) := by
  have fetched := executes.fetch machine.cpu.pc
  rw [executes.low15_pc, List.getD_eq_getElem?_getD] at fetched
  cases found : program[machine.cpu.pc.toNat]? with
  | some word => rw [fetched, found, Option.getD_some]
  | none =>
      rw [found, Option.getD_none] at fetched
      have address : machine.instruction = .address 0 := by
        rw [instruction, fetched]
        rfl
      exact absurd faults (not_faults_of_address address)

end Machine

end HackComputer
