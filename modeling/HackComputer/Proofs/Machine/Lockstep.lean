import HackComputer.Proofs.Machine.History
import Mathlib.Data.List.Forall2

/-!
# Machines in lockstep

Two machines that are driven in the same way may differ in something that their
cycles do not see.  `Lockstep` asks for this one cycle and one operation at a time;
that runs and whole traces do not see it either is derived here once.  A cycle that
is not `Quiet` may see the difference, and nothing is said from there on.
-/

namespace HackComputer

/-- What a successful operation yields. -/
inductive Yield where
  | nothing
  /-- What happened in a cycle. -/
  | cycle (info : StepInfo)
  /-- The number of cycles of a run. -/
  | cycles (count : Nat)
  deriving DecidableEq, Repr

/-- What the outside gets from an operation, or why it failed. -/
abbrev Outcome := Except MachineError Yield

/-- The outcomes are the same, up to what `SameInfo` forgets of a cycle. -/
inductive Outcome.Same (SameInfo : StepInfo → StepInfo → Prop) : Outcome → Outcome → Prop
  | error (error : MachineError) : Same SameInfo (.error error) (.error error)
  | nothing : Same SameInfo (.ok .nothing) (.ok .nothing)
  | cycle {first second : StepInfo} (same : SameInfo first second) :
      Same SameInfo (.ok (.cycle first)) (.ok (.cycle second))
  | cycles (count : Nat) : Same SameInfo (.ok (.cycles count)) (.ok (.cycles count))

/-- Nothing is forgotten of equal cycles. -/
theorem Outcome.Same.eq {first second : Outcome} (same : Outcome.Same Eq first second) :
    first = second := by
  cases same with
  | error error => rfl
  | nothing => rfl
  | cycle same => rw [same]
  | cycles count => rfl

/-- If it is a cycle, it started from a machine that is `Quiet`. -/
def Occurrence.StartsQuiet (Quiet : Machine → Prop) : Occurrence → Prop
  | .cycle start _ => Quiet start
  | .loaded _ | .restarted => True

instance (Quiet : Machine → Prop) [DecidablePred Quiet] :
    DecidablePred (Occurrence.StartsQuiet Quiet) := fun
  | .cycle start _ => inferInstanceAs (Decidable (Quiet start))
  | .loaded _ | .restarted => inferInstanceAs (Decidable True)

namespace Machine

/-- What the outside gets from an operation on the machine. -/
def outcome (machine : Machine) : Operation → Outcome
  | .stimulus .step => machine.step.1.map .cycle
  | .run budget => (machine.run budget).1.map .cycles
  | operation => (machine.operate operation).1.map fun _ => .nothing

/-- What the outside gets from each of a list of operations, with the machine after
it. -/
def trace (machine : Machine) : List Operation → List (Outcome × Machine)
  | [] => []
  | operation :: rest =>
    (machine.outcome operation, (machine.operate operation).2) ::
      (machine.operate operation).2.trace rest

/-- An operation without cycles gives nothing but its report. -/
theorem outcome_of_not_isClocked {machine : Machine} {operation : Operation}
    (unclocked : operation.isClocked = false) :
    machine.outcome operation = (machine.operate operation).1.map fun _ => .nothing := by
  cases operation with
  | run budget => contradiction
  | load program => rfl
  | stimulus stimulus =>
      cases stimulus with
      | step => contradiction
      | _ => rfl

/-- A run that succeeds gives the difference in the cycle counter. -/
theorem run_fst (machine : Machine) (budget : Nat) :
    (machine.run budget).1 = (runFor (machine.allowance budget) machine).1.map fun _ =>
      (runFor (machine.allowance budget) machine).2.cycles - machine.cycles := by
  rw [run_eq]
  rcases runFor (machine.allowance budget) machine with ⟨error | ⟨⟩, after⟩
  · rfl
  · rfl

/-- Machines related by `Same` go through the same cycles up to `SameInfo` and stay
related, as long as the cycles start quiet. -/
structure Lockstep (Same : Machine → Machine → Prop) (SameInfo : StepInfo → StepInfo → Prop)
    (Quiet : Machine → Prop) : Prop where
  state_eq : ∀ {first second}, Same first second → first.state = second.state
  cycles_eq : ∀ {first second}, Same first second → first.cycles = second.cycles
  faults_iff : ∀ {first second}, Same first second → (first.Faults ↔ second.Faults)
  fault_eq : ∀ {first second}, Same first second → first.fault = second.fault
  cycleInfo : ∀ {first second}, Same first second → Quiet first →
    SameInfo first.cycleInfo second.cycleInfo
  next : ∀ {first second}, Same first second → Quiet first → Same first.next second.next
  unclocked : ∀ {first second operation}, Same first second → operation.isClocked = false →
    (first.operate operation).1 = (second.operate operation).1 ∧
      Same (first.operate operation).2 (second.operate operation).2

namespace Lockstep

variable {Same : Machine → Machine → Prop} {SameInfo : StepInfo → StepInfo → Prop}
  {Quiet : Machine → Prop} {first second : Machine}

theorem step (lockstep : Lockstep Same SameInfo Quiet) (same : Same first second)
    (quiet : ∀ occurrence ∈ first.cycle?.toList, occurrence.StartsQuiet Quiet) :
    (first.outcome (.stimulus .step)).Same SameInfo (second.outcome (.stimulus .step)) ∧
      Same first.step.2 second.step.2 := by
  rw [outcome, outcome]
  by_cases faults : first.Faults
  · -- A refused cycle is no occurrence: it need not start quiet.
    rw [step_of_faults first faults, step_of_faults second ((lockstep.faults_iff same).1 faults),
      ← lockstep.fault_eq same]
    exact ⟨.error _, same⟩
  · have stepped := step_of_not_faults first faults
    rw [stepped, step_of_not_faults second (mt (lockstep.faults_iff same).2 faults)]
    rw [cycle?, stepped] at quiet
    obtain ⟨quiet, -⟩ := List.forall_mem_cons.1 quiet
    exact ⟨.cycle (lockstep.cycleInfo same quiet), lockstep.next same quiet⟩

theorem runFor (lockstep : Lockstep Same SameInfo Quiet) (limit : Nat)
    (same : Same first second)
    (quiet : ∀ occurrence ∈ cyclesFor limit first, occurrence.StartsQuiet Quiet) :
    (runFor limit first).1 = (runFor limit second).1 ∧
      Same (runFor limit first).2 (runFor limit second).2 := by
  induction limit generalizing first second with
  | zero => exact ⟨rfl, same⟩
  | succ limit inductionHypothesis =>
      rw [Machine.runFor, Machine.runFor, ← lockstep.state_eq same]
      rw [cyclesFor] at quiet
      by_cases halted : first.state = .halted
      · rw [if_pos halted, if_pos halted]
        exact ⟨rfl, same⟩
      · rw [if_neg halted] at quiet ⊢
        rw [if_neg halted]
        by_cases faults : first.Faults
        · rw [step_of_faults first faults,
            step_of_faults second ((lockstep.faults_iff same).1 faults), ← lockstep.fault_eq same]
          exact ⟨rfl, same⟩
        · have stepped := step_of_not_faults first faults
          rw [stepped, step_of_not_faults second (mt (lockstep.faults_iff same).2 faults)]
          rw [stepped] at quiet
          obtain ⟨quiet, quiet_rest⟩ := List.forall_mem_cons.1 quiet
          exact inductionHypothesis (lockstep.next same quiet) quiet_rest

theorem run (lockstep : Lockstep Same SameInfo Quiet) (budget : Nat)
    (same : Same first second)
    (quiet : ∀ occurrence ∈ cyclesFor (first.allowance budget) first,
      occurrence.StartsQuiet Quiet) :
    (first.outcome (.run budget)).Same SameInfo (second.outcome (.run budget)) ∧
      Same (first.run budget).2 (second.run budget).2 := by
  have allowance_eq : second.allowance budget = first.allowance budget := by
    rw [allowance, allowance, lockstep.cycles_eq same]
  obtain ⟨report_eq, same_after⟩ := lockstep.runFor _ same quiet
  -- The counters agree at both ends, so the runs count the same cycles.
  rw [run_snd, run_snd, outcome, outcome, run_fst, run_fst, allowance_eq, ← report_eq,
    ← lockstep.cycles_eq same, ← lockstep.cycles_eq same_after]
  refine ⟨?_, same_after⟩
  cases (Machine.runFor (first.allowance budget) first).1 with
  | error error => exact .error error
  | ok done => exact .cycles _

theorem operate (lockstep : Lockstep Same SameInfo Quiet) {operation : Operation}
    (same : Same first second)
    (quiet : ∀ occurrence ∈ first.occurrences operation, occurrence.StartsQuiet Quiet) :
    (first.outcome operation).Same SameInfo (second.outcome operation) ∧
      Same (first.operate operation).2 (second.operate operation).2 := by
  cases clocked : operation.isClocked with
  | true =>
      cases operation with
      | run budget => exact lockstep.run budget same quiet
      | load program => contradiction
      | stimulus stimulus =>
          cases stimulus with
          | step => exact lockstep.step same quiet
          | _ => contradiction
  | false =>
      obtain ⟨report_eq, same_after⟩ := lockstep.unclocked same clocked
      rw [outcome_of_not_isClocked clocked, outcome_of_not_isClocked clocked, ← report_eq]
      refine ⟨?_, same_after⟩
      cases (first.operate operation).1 with
      | error error => exact .error error
      | ok done => exact .nothing

theorem trace (lockstep : Lockstep Same SameInfo Quiet) {operations : List Operation}
    (same : Same first second)
    (quiet : ∀ occurrence ∈ first.history operations, occurrence.StartsQuiet Quiet) :
    List.Forall₂ (fun here there => here.1.Same SameInfo there.1 ∧ Same here.2 there.2)
      (first.trace operations) (second.trace operations) := by
  induction operations generalizing first second with
  | nil => exact .nil
  | cons operation rest inductionHypothesis =>
      obtain ⟨quiet, quiet_rest⟩ := List.forall_mem_append.1 quiet
      obtain ⟨outcome, same_after⟩ := lockstep.operate same quiet
      exact .cons ⟨outcome, same_after⟩ (inductionHypothesis same_after quiet_rest)

end Lockstep

end Machine

end HackComputer
