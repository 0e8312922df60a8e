import HackComputer.Proofs.Machine.Operation

/-!
# Detection only observes

Whether a machine detects idle loops, and whether it has detected one, decides
where its runs stop and nothing else.  `Machine.undetecting` forgets both; every
operation but a run answers the same, and leaves the same, before and after this
is forgotten.  A run of the machine is then a part of the run that it would make
without detection.
-/

namespace HackComputer

/-- What the outside learns from an operation: that it failed and why, and of a
cycle what happened in it. -/
abbrev Answer := Except MachineError (Option StepInfo)

namespace Machine

/-- What the outside learns from an operation on the machine. -/
def answer (machine : Machine) : Operation → Answer
  | .stimulus .step => machine.step.1.map some
  | operation => (machine.operate operation).1.map fun _ => none

/-- What the outside learns from a list of operations, one after the other. -/
def answers (machine : Machine) : List Operation → List Answer
  | [] => []
  | operation :: rest => machine.answer operation :: (machine.operate operation).2.answers rest

/-- The machine without detection, and so not known to idle.  Two machines are the
same without detection if they differ at most in whether they detect idle loops and
in whether they are halted. -/
def undetecting (machine : Machine) : Machine :=
  { machine with state := .running, haltDetection := false }

variable (machine : Machine)

/-! ## Operations -/

theorem next_undetecting : machine.undetecting.next = machine.next.undetecting := by
  have state_eq (info : StepInfo) :
      RunState.next .running machine.resetLine false machine.rom info = .running := by
    simp [RunState.next]
  exact congrArg (fun state => { machine.next with state, haltDetection := false })
    (state_eq machine.cycleInfo)

theorem step_undetecting :
    machine.undetecting.step = (machine.step.1, machine.step.2.undetecting) := by
  by_cases faults : machine.Faults
  · have faults' : machine.undetecting.Faults := faults
    rw [step_of_faults machine faults, step_of_faults _ faults']
    rfl
  · have allowed' : ¬machine.undetecting.Faults := faults
    rw [step_of_not_faults machine faults, step_of_not_faults _ allowed', next_undetecting]
    rfl

theorem load_undetecting (program : List Word) :
    machine.undetecting.load program =
      ((machine.load program).1, (machine.load program).2.undetecting) := by
  simp only [load]
  split <;> rfl

theorem operate_undetecting {operation : Operation} (no_run : operation.isRun = false) :
    machine.undetecting.operate operation =
      ((machine.operate operation).1, (machine.operate operation).2.undetecting) := by
  cases operation with
  | run budget => contradiction
  | load program => exact machine.load_undetecting program
  | stimulus stimulus =>
      cases stimulus with
      | step => simp only [operate, respond, step_undetecting]
      | setKeyboard key => rfl
      | setReset asserted => rfl
      | poke address value => rfl
      | reset => rfl

theorem answer_undetecting {operation : Operation} (no_run : operation.isRun = false) :
    machine.undetecting.answer operation = machine.answer operation := by
  cases operation with
  | run budget => contradiction
  | load program => simp only [answer, operate_undetecting machine no_run]
  | stimulus stimulus =>
      cases stimulus with
      | step => simp only [answer, step_undetecting]
      | _ => rfl

theorem after_undetecting {operations : List Operation}
    (no_runs : ∀ operation ∈ operations, operation.isRun = false) :
    machine.undetecting.answers operations = machine.answers operations ∧
      machine.undetecting.after operations = (machine.after operations).undetecting := by
  induction operations generalizing machine with
  | nil => exact ⟨rfl, rfl⟩
  | cons operation rest inductionHypothesis =>
      have no_run := no_runs operation List.mem_cons_self
      obtain ⟨answers_eq, after_eq⟩ := inductionHypothesis (machine.operate operation).2
        fun operation member => no_runs operation (List.mem_cons_of_mem _ member)
      rw [answers, answers, after_cons, after_cons, operate_undetecting machine no_run,
        answer_undetecting machine no_run, answers_eq, after_eq]
      exact ⟨rfl, rfl⟩

/-! ## Runs -/

theorem afterCycles?_undetecting (count : Nat) :
    machine.undetecting.afterCycles? count = (machine.afterCycles? count).map undetecting := by
  induction count generalizing machine with
  | zero => rfl
  | succ count inductionHypothesis =>
      simp only [afterCycles?, next?, step_undetecting]
      rcases machine.step with ⟨error | info, after⟩
      · rfl
      · exact inductionHypothesis after

variable {machine} {limit count count' : Nat} {last last' : Machine}

/-- Without detection a run stops where it is out of cycles or fails. -/
theorem stopsAt_undetecting_iff {index : Nat} :
    machine.undetecting.StopsAt limit index ↔
      index = limit ∨ ∃ error, machine.step.1 = .error error := by
  rw [StopsAt, step_undetecting]
  exact or_iff_right fun halted => RunState.noConfusion halted

/-- Without detection a run goes on at least as long. -/
theorem RunEnds.le_undetecting (ends : machine.RunEnds limit count last)
    (ends' : machine.undetecting.RunEnds limit count' last') : count ≤ count' := by
  apply Nat.le_of_not_lt
  intro before
  obtain ⟨middle, reached, goes_on⟩ := ends.earliest count' before
  have reached' := ends'.reached
  rw [afterCycles?_undetecting, reached] at reached'
  obtain rfl := Option.some.inj reached'
  exact goes_on (.inr (stopsAt_undetecting_iff.1 ends'.stops))

/-- A run that ends for lack of cycles or at a failure ends there without detection
too. -/
theorem RunEnds.eq_undetecting (ends : machine.RunEnds limit count last)
    (ends' : machine.undetecting.RunEnds limit count' last')
    (stops : last.undetecting.StopsAt limit count) : count = count' ∧ last.undetecting = last' := by
  have reached : machine.undetecting.afterCycles? count = some last.undetecting := by
    rw [afterCycles?_undetecting, ends.reached]
    rfl
  have not_before : ¬count < count' := by
    intro before
    obtain ⟨middle, reached', goes_on⟩ := ends'.earliest count before
    rw [reached] at reached'
    obtain rfl := Option.some.inj reached'
    exact goes_on stops
  obtain rfl : count = count' :=
    Nat.le_antisymm (ends.le_undetecting ends') (Nat.le_of_not_lt not_before)
  exact ⟨rfl, Option.some.inj (reached.symm.trans ends'.reached)⟩

/-- A run that fails would fail in the same way without detection. -/
theorem run_undetecting_of_error {budget : Nat} {error : MachineError}
    (failed : machine.run budget = (.error error, last)) :
    machine.undetecting.run budget = (.error error, last.undetecting) := by
  obtain ⟨count, _, ends, ⟨-, ran⟩ | ⟨goes_on, cause, stuck, ran⟩⟩ := run_spec budget machine
  · rw [failed] at ran
    cases ran
  · rw [failed] at ran
    obtain ⟨rfl, rfl⟩ : error = cause ∧ last = _ := by simpa using ran
    obtain ⟨count', _, ends', outcome⟩ := run_spec budget machine.undetecting
    have stops : last.undetecting.StopsAt (machine.allowance budget) count :=
      stopsAt_undetecting_iff.2 (.inr ⟨error, congrArg Prod.fst stuck⟩)
    obtain ⟨rfl, rfl⟩ := ends.eq_undetecting ends' stops
    rcases outcome with ⟨halted | spent, -⟩ | ⟨-, cause, stuck', ran'⟩
    · contradiction
    · exact absurd (.inr spent) goes_on
    · rw [step_undetecting, stuck] at stuck'
      rw [ran', Except.error.inj (Prod.mk.inj stuck').1]

/-- A run that succeeds is the beginning of the run without detection: that one passes
through the same machine after as many cycles. -/
theorem run_undetecting_of_ok {budget : Nat} (ran : machine.run budget = (.ok count, last)) :
    machine.undetecting.afterCycles? count = some last.undetecting ∧
      ∃ total, count ≤ total ∧
        machine.undetecting.afterCycles? total = some (machine.undetecting.run budget).2 := by
  obtain ⟨_, _, ends, ⟨-, ran'⟩ | ⟨-, error, -, ran'⟩⟩ := run_spec budget machine
  · rw [ran] at ran'
    obtain ⟨rfl, rfl⟩ : count = _ ∧ last = _ := by simpa using ran'
    obtain ⟨total, final, ends', outcome⟩ := run_spec budget machine.undetecting
    have final_eq : (machine.undetecting.run budget).2 = final := by
      rcases outcome with ⟨-, ran'⟩ | ⟨-, error, -, ran'⟩
      · rw [ran']
      · rw [ran']
    refine ⟨?_, total, ends.le_undetecting ends', ?_⟩
    · rw [afterCycles?_undetecting, ends.reached]
      rfl
    · rw [final_eq]
      exact ends'.reached
  · rw [ran] at ran'
    cases ran'

/-- Two machines that are the same without detection answer every operation but a
run in the same way and stay the same without detection.  If one of them does not
detect and is not halted, its run begins with the run of the other: it passes through
the same machine after as many cycles, or it fails in the same way, in the same
place. -/
theorem detection_only_observes (machine other : Machine)
    (same : machine.undetecting = other.undetecting) :
    (∀ operations : List Operation, (∀ operation ∈ operations, operation.isRun = false) →
      machine.answers operations = other.answers operations ∧
        (machine.after operations).undetecting = (other.after operations).undetecting) ∧
    (other.haltDetection = false → other.state = .running → ∀ budget,
      (∀ count last, machine.run budget = (.ok count, last) →
        ∃ middle total, other.afterCycles? count = some middle ∧
          last.undetecting = middle.undetecting ∧ count ≤ total ∧
          other.afterCycles? total = some (other.run budget).2) ∧
      ∀ error last, machine.run budget = (.error error, last) →
        ∃ final, other.run budget = (.error error, final) ∧
          last.undetecting = final.undetecting) := by
  constructor
  · intro operations no_runs
    obtain ⟨answers_eq, after_eq⟩ := machine.after_undetecting no_runs
    obtain ⟨answers_eq', after_eq'⟩ := other.after_undetecting no_runs
    rw [← answers_eq, ← answers_eq', ← after_eq, ← after_eq', same]
    exact ⟨rfl, rfl⟩
  · intro blind running budget
    obtain rfl : machine.undetecting = other := by
      rw [same, undetecting, ← blind, ← running]
    constructor
    · intro count last ran
      obtain ⟨reached, total, within, final_reached⟩ := run_undetecting_of_ok ran
      exact ⟨_, total, reached, rfl, within, final_reached⟩
    · intro error last failed
      exact ⟨_, run_undetecting_of_error failed, rfl⟩

/-- A machine with the program `@1, D;JEQ` that detects idle loops or does not. -/
def looping (haltDetection : Bool) : Machine :=
  (ofConfig { haltDetection }).withProgram [0x0001, 0xE302] (by decide)

/-- The machine that detects its loop stops after two cycles, where the one that does
not passes. -/
theorem run_of_looping :
    (looping true).undetecting = (looping false).undetecting ∧
      (looping false).haltDetection = false ∧ (looping false).state = .running ∧
      (looping true).answers [.stimulus .step, .stimulus (.setKeyboard 65), .stimulus .step] =
        (looping false).answers [.stimulus .step, .stimulus (.setKeyboard 65), .stimulus .step] ∧
      ∃ last middle total, (looping true).run 50 = (.ok 2, last) ∧
        (looping false).afterCycles? 2 = some middle ∧ last.undetecting = middle.undetecting ∧
        2 ≤ total ∧ (looping false).afterCycles? total = some ((looping false).run 50).2 := by
  have same : (looping true).undetecting = (looping false).undetecting := rfl
  obtain ⟨answering, running⟩ := detection_only_observes (looping true) (looping false) same
  have outcome_eq : ((looping true).run 50).1 = .ok 2 := by
    rw [run_eq]
    rfl
  rcases ran : (looping true).run 50 with ⟨outcome, last⟩
  rw [ran] at outcome_eq
  obtain rfl : outcome = .ok 2 := outcome_eq
  obtain ⟨middle, total, reached, last_eq, within, final_reached⟩ :=
    (running rfl rfl 50).1 2 last ran
  exact ⟨same, rfl, rfl, (answering _ (by decide)).1, last, middle, total, rfl, reached, last_eq,
    within, final_reached⟩

end Machine

end HackComputer
