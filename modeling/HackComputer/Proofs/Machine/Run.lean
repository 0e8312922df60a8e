import HackComputer.Proofs.Machine.Cycle

/-!
# Bounded runs

`afterCycles? n` is the machine after exactly `n` successful cycles.  A bounded
run is such an iteration, cut off at the first machine that is halted, has used
up the run's cycles or refuses the next one.  `RunEnds` says this without
mentioning the loop, and runs compose because their ends do.  The loop compares the
counter with a limit that it fixes at the start; `run_eq` turns this limit into the
number of cycles that are left.
-/

namespace HackComputer.Machine

/-- The machine after one successful cycle. -/
def next? (machine : Machine) : Option Machine :=
  match machine.step with
  | (.ok _, after) => some after
  | (.error _, _) => none

/-- The machine after exactly `count` successful cycles. -/
def afterCycles? : Nat → Machine → Option Machine
  | 0, machine => some machine
  | count + 1, machine => machine.next?.bind (afterCycles? count)

/-- Does a run of at most `limit` cycles stop at this machine, which it comes to
after `index` cycles? -/
def StopsAt (machine : Machine) (limit index : Nat) : Prop :=
  machine.state = .halted ∨ index = limit ∨ ∃ error, machine.step.1 = .error error

/-- A run of at most `limit` cycles ends after `count` of them, at `last`: the
first machine on its way at which it stops. -/
structure RunEnds (machine : Machine) (limit count : Nat) (last : Machine) : Prop where
  reached : machine.afterCycles? count = some last
  stops : last.StopsAt limit count
  earliest : ∀ index < count, ∃ middle,
    machine.afterCycles? index = some middle ∧ ¬middle.StopsAt limit index

variable {machine : Machine}

theorem next?_eq_some_iff {after : Machine} :
    machine.next? = some after ↔ ∃ info, machine.step = (.ok info, after) := by
  rw [next?]
  rcases machine.step with ⟨outcome, stepped⟩
  cases outcome <;> simp

theorem afterCycles?_succ_of_step {info : StepInfo} {after : Machine}
    (stepped : machine.step = (.ok info, after)) (count : Nat) :
    machine.afterCycles? (count + 1) = after.afterCycles? count := by
  rw [afterCycles?, next?_eq_some_iff.2 ⟨info, stepped⟩, Option.bind_some]

/-- Cycles may be counted in two parts. -/
theorem afterCycles?_add (first second : Nat) (machine : Machine) :
    machine.afterCycles? (first + second) =
      (machine.afterCycles? first).bind (afterCycles? second) := by
  induction first generalizing machine with
  | zero => rw [Nat.zero_add, afterCycles?, Option.bind_some]
  | succ first inductionHypothesis =>
      rw [Nat.add_right_comm, afterCycles?, afterCycles?, Option.bind_assoc]
      exact congrArg machine.next?.bind (funext inductionHypothesis)

/-- The last of a number of cycles. -/
theorem afterCycles?_succ_eq_some_iff {count : Nat} {last : Machine} :
    machine.afterCycles? (count + 1) = some last ↔
      ∃ middle info, machine.afterCycles? count = some middle ∧
        middle.step = (.ok info, last) := by
  have one_cycle (middle : Machine) :
      middle.afterCycles? 1 = some last ↔ ∃ info, middle.step = (.ok info, last) := by
    rw [← next?_eq_some_iff]
    change middle.next?.bind some = some last ↔ _
    rw [Option.bind_fun_some]
  simp only [afterCycles?_add count 1, Option.bind_eq_some_iff, one_cycle, exists_and_left]

/-- Each of a number of cycles, with the machines before and after it. -/
theorem exists_cycle_of_afterCycles? {index count : Nat} {last : Machine} (before : index < count)
    (reached : machine.afterCycles? count = some last) :
    ∃ middle info after, machine.afterCycles? index = some middle ∧
      middle.step = (.ok info, after) ∧ machine.afterCycles? (index + 1) = some after := by
  obtain ⟨rest, rfl⟩ := Nat.exists_eq_add_of_le (Nat.succ_le_of_lt before)
  rw [afterCycles?_add] at reached
  obtain ⟨after, reached_after, -⟩ := Option.bind_eq_some_iff.1 reached
  obtain ⟨middle, info, reached_middle, stepped⟩ := afterCycles?_succ_eq_some_iff.1 reached_after
  exact ⟨middle, info, after, reached_middle, stepped, reached_after⟩

/-- What every successful cycle keeps, any number of them keeps. -/
theorem afterCycles?_preserves (Inv : Machine → Prop)
    (kept : ∀ before info after, Inv before → before.step = (.ok info, after) → Inv after)
    {count : Nat} {last : Machine} (start : Inv machine)
    (reached : machine.afterCycles? count = some last) : Inv last := by
  induction count generalizing last with
  | zero => rwa [← Option.some.inj reached]
  | succ count inductionHypothesis =>
      obtain ⟨middle, info, reached, stepped⟩ := afterCycles?_succ_eq_some_iff.1 reached
      exact kept middle info last (inductionHypothesis reached) stepped

theorem cycles_of_afterCycles? {count : Nat} {last : Machine}
    (reached : machine.afterCycles? count = some last) :
    last.cycles = machine.cycles + count := by
  induction count generalizing last with
  | zero => rw [Option.some.inj reached, Nat.add_zero]
  | succ count inductionHypothesis =>
      obtain ⟨middle, info, reached, stepped⟩ := afterCycles?_succ_eq_some_iff.1 reached
      rw [cycles_of_step stepped, inductionHypothesis reached, Nat.add_assoc]

theorem stopsAt_succ_iff {limit index : Nat} :
    machine.StopsAt (limit + 1) (index + 1) ↔ machine.StopsAt limit index := by
  rw [StopsAt, StopsAt, Nat.add_right_cancel_iff]

theorem RunEnds.count_le {limit count : Nat} {last : Machine}
    (ends : machine.RunEnds limit count last) : count ≤ limit := by
  apply Nat.le_of_not_lt
  intro beyond
  obtain ⟨middle, -, goes_on⟩ := ends.earliest limit beyond
  exact goes_on (.inr (.inl rfl))

/-- A run that need not stop at once ends where it does from the next machine. -/
theorem RunEnds.succ {limit count : Nat} {info : StepInfo} {after last : Machine}
    (running : machine.state ≠ .halted) (stepped : machine.step = (.ok info, after))
    (ends : after.RunEnds limit count last) : machine.RunEnds (limit + 1) (count + 1) last where
  reached := (afterCycles?_succ_of_step stepped count).trans ends.reached
  stops := stopsAt_succ_iff.2 ends.stops
  earliest
    | 0, _ => by
        refine ⟨machine, rfl, ?_⟩
        rintro (halted | spent | ⟨error, failed⟩)
        · exact running halted
        · contradiction
        · rw [stepped] at failed
          contradiction
    | index + 1, before => by
        obtain ⟨middle, reached, goes_on⟩ := ends.earliest index (Nat.lt_of_succ_lt_succ before)
        exact ⟨middle, (afterCycles?_succ_of_step stepped index).trans reached,
          fun stops => goes_on (stopsAt_succ_iff.1 stops)⟩

/-! ## The loop by the number of its cycles -/

/-- Steps until the machine is halted or a step fails, at most `count` times. -/
def runFor : Nat → Machine → Except MachineError Unit × Machine
  | 0, machine => (.ok (), machine)
  | count + 1, machine =>
    if machine.state = .halted then (.ok (), machine)
    else
      match machine.step with
      | (.error error, after) => (.error error, after)
      | (.ok _, after) => runFor count after

/-- The number of cycles that a run with budget `budget` may take: the counter
never passes its greatest value. -/
def allowance (machine : Machine) (budget : Nat) : Nat :=
  min budget (maxCycles - machine.cycles)

theorem cycleLimit_sub_cycles (budget : Nat) :
    machine.cycleLimit budget - machine.cycles = machine.allowance budget := by
  rw [cycleLimit, allowance]
  omega

theorem running_iff_not_halted : machine.state = .running ↔ ¬machine.state = .halted := by
  cases machine.state <;> decide

/-- What is left below the limit of a loop is the number of cycles that it may
take. -/
theorem runUntil_eq_runFor (limit : Nat) (machine : Machine) :
    runUntil limit machine = runFor (limit - machine.cycles) machine := by
  induction machine using runUntil.induct limit with
  | case1 machine goesOn inductionHypothesis =>
      obtain ⟨count, remaining⟩ := Nat.exists_eq_add_of_lt goesOn.2
      rw [runUntil, if_pos goesOn, show limit - machine.cycles = count + 1 by omega, runFor,
        if_neg (running_iff_not_halted.1 goesOn.1)]
      rcases stepped : machine.step with ⟨error | info, after⟩
      · rw [stepThen_of_error stepped]
      · have counted := cycles_of_step stepped
        rw [stepThen_of_ok stepped, inductionHypothesis after counted,
          show limit - after.cycles = count by omega]
  | case2 machine ended =>
      rw [runUntil, if_neg ended]
      cases remaining : limit - machine.cycles with
      | zero => rfl
      | succ count =>
          have halted : machine.state = .halted :=
            Decidable.not_not.1 fun running =>
              ended ⟨running_iff_not_halted.2 running, by omega⟩
          rw [runFor, if_pos halted]

/-- The loop of a run takes at most the cycles that the run may take. -/
theorem run_eq (budget : Nat) (machine : Machine) :
    machine.run budget =
      match runFor (machine.allowance budget) machine with
      | (.error error, after) => (.error error, after)
      | (.ok (), after) => (.ok (after.cycles - machine.cycles), after) := by
  have loop_eq : runUntil (machine.cycleLimit budget) machine =
      runFor (machine.allowance budget) machine := by
    rw [runUntil_eq_runFor, cycleLimit_sub_cycles]
  rcases ran : runFor (machine.allowance budget) machine with ⟨error | ⟨⟩, after⟩
  · simp only [run, loop_eq, ran]
  · simp only [run, loop_eq, ran]

/-- The loop of a run goes to where the run ends.  Being halted or out of cycles
comes before the failure of the next cycle. -/
theorem runFor_spec (limit : Nat) (machine : Machine) :
    ∃ count last, machine.RunEnds limit count last ∧
      ((last.state = .halted ∨ count = limit) ∧ runFor limit machine = (.ok (), last) ∨
        ¬(last.state = .halted ∨ count = limit) ∧
          ∃ error, last.step = (.error error, last) ∧
            runFor limit machine = (.error error, last)) := by
  have ends_here {limit : Nat} {machine : Machine} (stops : machine.StopsAt limit 0) :
      machine.RunEnds limit 0 machine :=
    ⟨rfl, stops, fun _ before => absurd before (Nat.not_lt_zero _)⟩
  induction limit generalizing machine with
  | zero => exact ⟨0, machine, ends_here (.inr (.inl rfl)), .inl ⟨.inr rfl, rfl⟩⟩
  | succ limit inductionHypothesis =>
      rw [runFor]
      by_cases halted : machine.state = .halted
      · rw [if_pos halted]
        exact ⟨0, machine, ends_here (.inl halted), .inl ⟨.inl halted, rfl⟩⟩
      · rw [if_neg halted]
        by_cases faults : machine.Faults
        · have failed := step_of_faults machine faults
          refine ⟨0, machine, ends_here (.inr (.inr ⟨machine.fault, by rw [failed]⟩)), .inr ?_⟩
          refine ⟨?_, machine.fault, failed, by rw [failed]⟩
          rintro (halted' | spent)
          · exact halted halted'
          · contradiction
        · have stepped := step_of_not_faults machine faults
          obtain ⟨count, last, ends, outcome⟩ := inductionHypothesis machine.next
          refine ⟨count + 1, last, ends.succ halted stepped, ?_⟩
          rw [Nat.add_right_cancel_iff, stepped]
          exact outcome

/-- A run counts its cycles, and takes no more than it may. -/
theorem cycles_runFor (limit : Nat) (machine : Machine) :
    ∃ count ≤ limit, (runFor limit machine).2.cycles = machine.cycles + count := by
  obtain ⟨count, last, ends, ⟨-, ran⟩ | ⟨-, error, -, ran⟩⟩ := runFor_spec limit machine
  · exact ⟨count, ends.count_le, by rw [ran, cycles_of_afterCycles? ends.reached]⟩
  · exact ⟨count, ends.count_le, by rw [ran, cycles_of_afterCycles? ends.reached]⟩

theorem runFor_of_halted (limit : Nat) (halted : machine.state = .halted) :
    runFor limit machine = (.ok (), machine) := by
  cases limit with
  | zero => rfl
  | succ limit => rw [runFor, if_pos halted]

/-- A run that comes to a halted machine within its cycles ends halted, there or
before. -/
theorem runFor_of_halted_after {count limit : Nat} {last : Machine}
    (reached : machine.afterCycles? count = some last) (halted : last.state = .halted)
    (within : count ≤ limit) :
    ∃ index ≤ count, ∃ stop, machine.afterCycles? index = some stop ∧ stop.state = .halted ∧
      runFor limit machine = (.ok (), stop) := by
  induction count generalizing machine limit with
  | zero =>
      obtain rfl := Option.some.inj reached
      exact ⟨0, Nat.le_refl 0, machine, rfl, halted, runFor_of_halted limit halted⟩
  | succ count inductionHypothesis =>
      by_cases early : machine.state = .halted
      · exact ⟨0, Nat.zero_le _, machine, rfl, early, runFor_of_halted limit early⟩
      · obtain ⟨after, stepped, rest⟩ := Option.bind_eq_some_iff.1 reached
        obtain ⟨info, stepped⟩ := next?_eq_some_iff.1 stepped
        cases limit with
        | zero => contradiction
        | succ limit =>
            obtain ⟨index, before, stop, stop_reached, stopped, ran⟩ :=
              inductionHypothesis rest (Nat.le_of_succ_le_succ within)
            refine ⟨index + 1, Nat.succ_le_succ before, stop, ?_, stopped, ?_⟩
            · exact (afterCycles?_succ_of_step stepped index).trans stop_reached
            · rw [runFor, if_neg early, stepped]
              exact ran

/-- The loop may be left and entered again. -/
theorem runFor_add (first second : Nat) (machine : Machine) :
    runFor (first + second) machine =
      match runFor first machine with
      | (.error error, after) => (.error error, after)
      | (.ok (), middle) => runFor second middle := by
  induction first generalizing machine with
  | zero => rw [Nat.zero_add, runFor]
  | succ first inductionHypothesis =>
      rw [Nat.add_right_comm, runFor, runFor]
      by_cases halted : machine.state = .halted
      · rw [if_pos halted, if_pos halted]
        exact (runFor_of_halted second halted).symm
      · rw [if_neg halted, if_neg halted]
        rcases machine.step with ⟨error | info, after⟩
        · rfl
        · exact inductionHypothesis after

/-- Two budgets allow together what the second allows after the first. -/
theorem allowance_add (first second : Nat) :
    machine.allowance (first + second) =
      machine.allowance first +
        min second (maxCycles - (machine.cycles + machine.allowance first)) := by
  simp only [allowance]
  omega

/-- The outcome of a run in terms of its end. -/
theorem run_spec (budget : Nat) (machine : Machine) :
    ∃ count last, machine.RunEnds (machine.allowance budget) count last ∧
      ((last.state = .halted ∨ count = machine.allowance budget) ∧
          machine.run budget = (.ok count, last) ∨
        ¬(last.state = .halted ∨ count = machine.allowance budget) ∧
          ∃ error, last.step = (.error error, last) ∧
            machine.run budget = (.error error, last)) := by
  obtain ⟨count, last, ends, ⟨stops, ran⟩ | ⟨goes_on, error, failed, ran⟩⟩ :=
    runFor_spec (machine.allowance budget) machine
  · refine ⟨count, last, ends, .inl ⟨stops, ?_⟩⟩
    simp only [run_eq, ran, cycles_of_afterCycles? ends.reached, Nat.add_sub_cancel_left]
  · exact ⟨count, last, ends, .inr ⟨goes_on, error, failed, by rw [run_eq, ran]⟩⟩

/-- A run that the counter has room for takes all its cycles, if none of them is refused
and the machine is running before each of them. -/
theorem run_of_running {budget : Nat} {last : Machine}
    (room : machine.cycles + budget ≤ maxCycles) (reached : machine.afterCycles? budget = some last)
    (running : ∀ index < budget, ∀ middle, machine.afterCycles? index = some middle →
      middle.state = .running) : machine.run budget = (.ok budget, last) := by
  have allowance_eq : machine.allowance budget = budget :=
    Nat.min_eq_left (Nat.le_sub_of_add_le' room)
  obtain ⟨count, final, ends, outcome⟩ := run_spec budget machine
  rw [allowance_eq] at ends outcome
  have not_early : ¬count < budget := by
    intro before
    obtain ⟨middle, info, after, reached_middle, stepped, -⟩ :=
      exists_cycle_of_afterCycles? before reached
    obtain rfl := Option.some.inj (ends.reached.symm.trans reached_middle)
    rcases ends.stops with halted | spent | ⟨error, failed⟩
    · rw [running count before final ends.reached] at halted
      contradiction
    · exact Nat.ne_of_lt before spent
    · rw [stepped] at failed
      contradiction
  obtain rfl : count = budget := Nat.le_antisymm ends.count_le (Nat.le_of_not_lt not_early)
  obtain rfl := Option.some.inj (ends.reached.symm.trans reached)
  rcases outcome with ⟨-, ran⟩ | ⟨goes_on, -⟩
  · exact ran
  · exact absurd (.inr rfl) goes_on

/-- A run that is left and entered again is one run with both budgets. -/
theorem run_add (first second : Nat) (machine : Machine) :
    machine.run (first + second) =
      match machine.run first with
      | (.error error, after) => (.error error, after)
      | (.ok count, middle) =>
        match middle.run second with
        | (.error error, after) => (.error error, after)
        | (.ok more, after) => (.ok (count + more), after) := by
  obtain ⟨count, middle, ends, ⟨stops, ran⟩ | ⟨-, error, -, ran⟩⟩ :=
    runFor_spec (machine.allowance first) machine
  · have counted := cycles_of_afterCycles? ends.reached
    -- A halted machine goes no further on any allowance; any other has used up
    -- the first one, and what is left over is its own allowance.
    have resumed : runFor (min second (maxCycles - (machine.cycles + machine.allowance first)))
        middle = runFor (middle.allowance second) middle := by
      rcases stops with halted | spent
      · rw [runFor_of_halted _ halted, runFor_of_halted _ halted]
      · rw [← spent, ← counted]
        rfl
    obtain ⟨more, last, ends', ⟨-, ran'⟩ | ⟨-, error, -, ran'⟩⟩ :=
      runFor_spec (middle.allowance second) middle
    · have counted' := cycles_of_afterCycles? ends'.reached
      have total : last.cycles - machine.cycles =
          middle.cycles - machine.cycles + (last.cycles - middle.cycles) := by
        omega
      simp only [run_eq, allowance_add, runFor_add, ran, resumed, ran', total]
    · simp only [run_eq, allowance_add, runFor_add, ran, resumed, ran']
  · simp only [run_eq, allowance_add, runFor_add, ran]

/-- A bounded run is an iteration of cycles up to the first machine that is
halted, out of cycles or faulty, in this order of precedence, and never takes
the counter past its greatest value; and two runs in a row are one run with both
budgets. -/
theorem run_ends_earliest_and_composes (machine : Machine)
    (counted : machine.cycles ≤ maxCycles) :
    (∀ budget, ∃ count last,
      machine.RunEnds (min budget (maxCycles - machine.cycles)) count last ∧
      last.cycles = machine.cycles + count ∧ last.cycles ≤ maxCycles ∧
      ((last.state = .halted ∨ count = min budget (maxCycles - machine.cycles)) ∧
          machine.run budget = (.ok count, last) ∨
        ¬(last.state = .halted ∨ count = min budget (maxCycles - machine.cycles)) ∧
          ∃ error, last.step = (.error error, last) ∧
            machine.run budget = (.error error, last))) ∧
    ∀ first second,
      machine.run (first + second) =
        match machine.run first with
        | (.error error, after) => (.error error, after)
        | (.ok count, middle) =>
          match middle.run second with
          | (.error error, after) => (.error error, after)
          | (.ok more, after) => (.ok (count + more), after) := by
  constructor
  · intro budget
    obtain ⟨count, last, ends, outcome⟩ := run_spec budget machine
    have reached := cycles_of_afterCycles? ends.reached
    have within : last.cycles ≤ maxCycles := by
      have := ends.count_le
      rw [allowance] at this
      omega
    exact ⟨count, last, ends, reached, within, outcome⟩
  · intro first second
    exact run_add first second machine

/-- One cycle below the greatest count, a run with budget five ends after one
cycle. -/
theorem run_ends_below_greatest_count :
    maxCycles - 1 ≤ maxCycles ∧
      ∃ last, RunEnds { ofConfig {} with cycles := maxCycles - 1 } 1 1 last ∧
        run { ofConfig {} with cycles := maxCycles - 1 } 5 = (.ok 1, last) := by
  have counted : maxCycles - 1 ≤ maxCycles := Nat.sub_le _ _
  have outcome_eq : (run { ofConfig {} with cycles := maxCycles - 1 } 5).1 = .ok 1 := by
    rw [run_eq]
    rfl
  obtain ⟨count, last, ends, -, -, ⟨-, ran⟩ | ⟨-, error, -, ran⟩⟩ :=
    (run_ends_earliest_and_composes { ofConfig {} with cycles := maxCycles - 1 } counted).1 5
  · rw [ran] at outcome_eq
    obtain rfl : count = 1 := Except.ok.inj outcome_eq
    exact ⟨counted, last, ends, ran⟩
  · rw [ran] at outcome_eq
    contradiction

end HackComputer.Machine
