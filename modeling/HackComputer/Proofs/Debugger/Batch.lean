import HackComputer.Debugger
import HackComputer.Proofs.Machine.Run
import HackComputer.Proofs.Memory.Program

/-!
# Batches of the debugger

A batch is a bounded run that stops at breakpoints besides: at one that it comes
to, not at one that it starts from.  `BatchEnds` says where it stops without
mentioning the loop, and `BatchResult` what the debugger then shows.  Without
breakpoints a batch ends where a run ends.
-/

namespace HackComputer.Debugger

/-- Does a batch meet a breakpoint at this machine, which it comes to after
`index` cycles?  The machine that it starts from is none that it comes to. -/
def HitsBreakpoint (breakpoints : List Word) (machine : Machine) (index : Nat) : Prop :=
  0 < index ∧ machine.cpu.pc ∈ breakpoints

/-- Does a batch of at most `limit` cycles stop at this machine, which it comes
to after `index` cycles? -/
def PausesAt (breakpoints : List Word) (machine : Machine) (limit index : Nat) : Prop :=
  machine.StopsAt limit index ∨ HitsBreakpoint breakpoints machine index

/-- A batch of at most `limit` cycles ends after `count` of them, at `last`: the
first machine on its way at which it stops. -/
structure BatchEnds (breakpoints : List Word) (machine : Machine) (limit count : Nat)
    (last : Machine) : Prop where
  reached : machine.afterCycles? count = some last
  pauses : PausesAt breakpoints last limit count
  earliest : ∀ index < count, ∃ middle,
    machine.afterCycles? index = some middle ∧ ¬PausesAt breakpoints middle limit index

/-- What a batch makes of the debugger if it ends after `count` cycles, at
`last`.  A breakpoint comes before everything else, and being out of cycles
before a halt or a failure. -/
inductive BatchResult (debugger : Debugger) (limit count : Nat) (last : Machine) :
    Debugger → Prop where
  | breakpoint (hit : HitsBreakpoint debugger.breakpoints last count) :
      BatchResult debugger limit count last
        { debugger with machine := last, running := false, status := .stopped last.cpu.pc }
  | spent (passed : ¬HitsBreakpoint debugger.breakpoints last count) (spent : count = limit)
      (status : DebugStatus) :
      BatchResult debugger limit count last { debugger with machine := last, status }
  | halted (passed : ¬HitsBreakpoint debugger.breakpoints last count) (unspent : count < limit)
      (halted : last.state = .halted) :
      BatchResult debugger limit count last
        { debugger with machine := last, running := false, status := .halted last.cycles }
  /-- The report on the failure gives way to a breakpoint at the program counter. -/
  | failed (passed : ¬HitsBreakpoint debugger.breakpoints last count) (unspent : count < limit)
      (goes_on : last.state ≠ .halted) (error : MachineError)
      (failed : last.step = (.error error, last)) :
      BatchResult debugger limit count last
        { debugger with
          machine := last
          running := false
          status :=
            if last.cpu.pc ∈ debugger.breakpoints then .stopped last.cpu.pc else .failed error }

section Ends

variable {breakpoints : List Word} {machine after last : Machine} {limit count index : Nat}

theorem not_hitsBreakpoint_zero : ¬HitsBreakpoint breakpoints machine 0 :=
  fun hit => Nat.lt_irrefl 0 hit.1

/-- A batch that stops where it starts. -/
theorem batchEnds_zero (stops : machine.StopsAt limit 0) :
    BatchEnds breakpoints machine limit 0 machine where
  reached := rfl
  pauses := .inl stops
  earliest := fun _ before => absurd before (Nat.not_lt_zero _)

theorem not_stopsAt_zero {info : StepInfo} (unspent : 0 < limit)
    (running : machine.state ≠ .halted) (stepped : machine.step = (.ok info, after)) :
    ¬machine.StopsAt limit 0 := by
  rintro (halted | spent | ⟨error, failed⟩)
  · exact running halted
  · exact Nat.ne_of_lt unspent spent
  · rw [stepped] at failed
    contradiction

/-- A batch that meets a breakpoint after its first cycle. -/
theorem batchEnds_one {info : StepInfo} (goes_on : ¬machine.StopsAt limit 0)
    (stepped : machine.step = (.ok info, after)) (hit : after.cpu.pc ∈ breakpoints) :
    BatchEnds breakpoints machine limit 1 after where
  reached := Machine.afterCycles?_succ_of_step stepped 0
  pauses := .inr ⟨Nat.one_pos, hit⟩
  earliest := by
    intro index before
    obtain rfl : index = 0 := Nat.lt_one_iff.1 before
    refine ⟨machine, rfl, ?_⟩
    rintro (stops | unmet)
    · exact goes_on stops
    · exact not_hitsBreakpoint_zero unmet

/-- A batch that neither stops at once nor meets a breakpoint after its first
cycle ends where it does from the next machine. -/
theorem BatchEnds.succ {info : StepInfo} (goes_on : ¬machine.StopsAt (limit + 1) 0)
    (stepped : machine.step = (.ok info, after)) (passed : after.cpu.pc ∉ breakpoints)
    (ends : BatchEnds breakpoints after limit count last) :
    BatchEnds breakpoints machine (limit + 1) (count + 1) last where
  reached := (Machine.afterCycles?_succ_of_step stepped count).trans ends.reached
  pauses := by
    rcases ends.pauses with stops | ⟨-, hit⟩
    · exact .inl (Machine.stopsAt_succ_iff.2 stops)
    · exact .inr ⟨Nat.succ_pos count, hit⟩
  earliest
    | 0, _ => by
        refine ⟨machine, rfl, ?_⟩
        rintro (stops | hit)
        · exact goes_on stops
        · exact not_hitsBreakpoint_zero hit
    | index + 1, before => by
        obtain ⟨middle, reached, unpaused⟩ :=
          ends.earliest index (Nat.lt_of_succ_lt_succ before)
        refine ⟨middle, (Machine.afterCycles?_succ_of_step stepped index).trans reached, ?_⟩
        rintro (stops | ⟨-, hit⟩)
        · exact unpaused (.inl (Machine.stopsAt_succ_iff.1 stops))
        · cases index with
          | zero =>
              obtain rfl : after = middle := Option.some.inj reached
              exact passed hit
          | succ index => exact unpaused (.inr ⟨Nat.succ_pos index, hit⟩)

/-- A batch stops at the first machine that makes it stop, so no later one is
where it ends. -/
theorem BatchEnds.not_lt {count' : Nat} {last' : Machine}
    (ends : BatchEnds breakpoints machine limit count last)
    (ends' : BatchEnds breakpoints machine limit count' last') : ¬count < count' := by
  intro before
  obtain ⟨middle, reached, goes_on⟩ := ends'.earliest count before
  rw [ends.reached] at reached
  obtain rfl : last = middle := Option.some.inj reached
  exact goes_on ends.pauses

theorem BatchEnds.unique {count' : Nat} {last' : Machine}
    (ends : BatchEnds breakpoints machine limit count last)
    (ends' : BatchEnds breakpoints machine limit count' last') :
    count = count' ∧ last = last' := by
  obtain rfl : count = count' :=
    Nat.le_antisymm (Nat.le_of_not_lt (ends'.not_lt ends)) (Nat.le_of_not_lt (ends.not_lt ends'))
  exact ⟨rfl, Option.some.inj (ends.reached.symm.trans ends'.reached)⟩

/-- No breakpoint on the way is passed over. -/
theorem BatchEnds.not_mem_of_lt (ends : BatchEnds breakpoints machine limit count last)
    {middle : Machine} (started : 0 < index) (before : index < count)
    (reached : machine.afterCycles? index = some middle) : middle.cpu.pc ∉ breakpoints := by
  intro hit
  obtain ⟨other, other_reached, goes_on⟩ := ends.earliest index before
  rw [reached] at other_reached
  obtain rfl : middle = other := Option.some.inj other_reached
  exact goes_on (.inr ⟨started, hit⟩)

/-- A batch leaves the machine that it starts from, a breakpoint or not, unless a
run would stop there. -/
theorem BatchEnds.stopsAt_or_pos (ends : BatchEnds breakpoints machine limit count last) :
    machine.StopsAt limit 0 ∨ 0 < count := by
  cases count with
  | zero =>
      obtain rfl : machine = last := Option.some.inj ends.reached
      rcases ends.pauses with stops | hit
      · exact .inl stops
      · exact absurd hit not_hitsBreakpoint_zero
  | succ count => exact .inr (Nat.succ_pos count)

theorem batchEnds_of_runEnds (ends : machine.RunEnds limit count last) :
    BatchEnds [] machine limit count last where
  reached := ends.reached
  pauses := .inl ends.stops
  earliest := by
    intro index before
    obtain ⟨middle, reached, goes_on⟩ := ends.earliest index before
    refine ⟨middle, reached, ?_⟩
    rintro (stops | ⟨-, hit⟩)
    · exact goes_on stops
    · exact List.not_mem_nil hit

end Ends

variable {debugger : Debugger}

theorem step_of_ok {info : StepInfo} {after : Machine}
    (stepped : debugger.machine.step = (.ok info, after)) :
    debugger.step = { debugger with machine := after, status := .stepped info.pc info.word } := by
  rw [step, stepped]

theorem step_of_error {error : MachineError} {after : Machine}
    (failed : debugger.machine.step = (.error error, after)) :
    debugger.step =
      { debugger with machine := after, status := .failed error, running := false } := by
  rw [step, failed]

theorem tickFor_of_not_running (limit : Nat) (idle : debugger.running = false) :
    tickFor limit debugger = debugger := by
  cases limit with
  | zero => rfl
  | succ limit => simp [tickFor, idle]

/-- A batch goes on in the same way after a cycle that meets no breakpoint. -/
theorem BatchResult.succ {limit count : Nat} {after last : Machine} {status : DebugStatus}
    {result : Debugger} (passed : after.cpu.pc ∉ debugger.breakpoints)
    (reached : after.afterCycles? count = some last)
    (outcome : BatchResult { debugger with machine := after, status } limit count last result) :
    BatchResult debugger (limit + 1) (count + 1) last result := by
  have passed_succ (unmet : ¬HitsBreakpoint debugger.breakpoints last count) :
      ¬HitsBreakpoint debugger.breakpoints last (count + 1) := by
    rintro ⟨-, hit⟩
    cases count with
    | zero =>
        obtain rfl : after = last := Option.some.inj reached
        exact passed hit
    | succ count => exact unmet ⟨Nat.succ_pos count, hit⟩
  cases outcome with
  | breakpoint hit => exact .breakpoint ⟨Nat.succ_pos count, hit.2⟩
  | spent unmet spent status => exact .spent (passed_succ unmet) (congrArg Nat.succ spent) status
  | halted unmet unspent halted =>
      exact .halted (passed_succ unmet) (Nat.succ_lt_succ unspent) halted
  | failed unmet unspent goes_on error failed =>
      exact .failed (passed_succ unmet) (Nat.succ_lt_succ unspent) goes_on error failed

/-- The loop of a batch goes to where the batch ends. -/
theorem tickFor_spec (limit : Nat) (debugger : Debugger) (running : debugger.running = true) :
    ∃ count last, BatchEnds debugger.breakpoints debugger.machine limit count last ∧
      BatchResult debugger limit count last (tickFor limit debugger) := by
  induction limit generalizing debugger with
  | zero =>
      exact ⟨0, debugger.machine, batchEnds_zero (.inr (.inl rfl)),
        .spent not_hitsBreakpoint_zero rfl debugger.status⟩
  | succ limit inductionHypothesis =>
      simp only [tickFor, running, Bool.not_true, if_false, Bool.false_eq_true,
        List.contains_iff_mem]
      by_cases halted : debugger.machine.state = .halted
      · rw [if_pos halted]
        exact ⟨0, debugger.machine, batchEnds_zero (.inl halted),
          .halted not_hitsBreakpoint_zero (Nat.succ_pos limit) halted⟩
      · rw [if_neg halted]
        rcases stepped : debugger.machine.step with ⟨error | info, after⟩
        · -- The machine stays, so that the test behind the cycle looks at the
          -- program counter that the batch started from.
          obtain ⟨-, -, rfl⟩ := Machine.step_eq_error_iff.1 stepped
          refine ⟨0, debugger.machine,
            batchEnds_zero (.inr (.inr ⟨error, congrArg Prod.fst stepped⟩)), ?_⟩
          have outcome : BatchResult debugger (limit + 1) 0 debugger.machine _ :=
            .failed not_hitsBreakpoint_zero (Nat.succ_pos limit) halted error stepped
          rw [step_of_error stepped]
          by_cases standing : debugger.machine.cpu.pc ∈ debugger.breakpoints
          · rw [if_pos standing] at outcome ⊢
            exact outcome
          · rw [if_neg standing] at outcome ⊢
            rw [tickFor_of_not_running limit rfl]
            exact outcome
        · rw [step_of_ok stepped]
          have goes_on : ¬debugger.machine.StopsAt (limit + 1) 0 :=
            not_stopsAt_zero (Nat.succ_pos limit) halted stepped
          by_cases hit : after.cpu.pc ∈ debugger.breakpoints
          · rw [if_pos hit]
            exact ⟨1, after, batchEnds_one goes_on stepped hit, .breakpoint ⟨Nat.one_pos, hit⟩⟩
          · rw [if_neg hit]
            obtain ⟨count, last, ends, outcome⟩ := inductionHypothesis
              { debugger with machine := after, status := .stepped info.pc info.word } running
            exact ⟨count + 1, last, ends.succ goes_on stepped hit,
              outcome.succ hit ends.reached⟩

theorem BatchResult.machine_eq {limit count : Nat} {last : Machine} {result : Debugger}
    (outcome : BatchResult debugger limit count last result) : result.machine = last := by
  cases outcome <;> rfl

/-- Continuous execution ends at a breakpoint, and at a halt or a failure if cycles
are left. -/
theorem BatchResult.running_eq_false_iff {limit count : Nat} {last : Machine} {result : Debugger}
    (running : debugger.running = true)
    (outcome : BatchResult debugger limit count last result) :
    result.running = false ↔
      HitsBreakpoint debugger.breakpoints last count ∨
        count < limit ∧ (last.state = .halted ∨ ∃ error, last.step.1 = .error error) := by
  cases outcome with
  | breakpoint hit => exact iff_of_true rfl (.inl hit)
  | spent passed spent status =>
      subst spent
      simp only [running, passed, Nat.lt_irrefl, false_and, or_false, Bool.true_eq_false]
  | halted passed unspent halted => exact iff_of_true rfl (.inr ⟨unspent, .inl halted⟩)
  | failed passed unspent goes_on error failed =>
      exact iff_of_true rfl (.inr ⟨unspent, .inr ⟨error, congrArg Prod.fst failed⟩⟩)

/-- Without breakpoints a batch is a run, as far as the cycle counter goes. -/
theorem BatchEnds.eq_run {budget count : Nat} {machine last : Machine}
    (counted : machine.cycles + budget ≤ maxCycles)
    (ends : BatchEnds [] machine budget count last) : (machine.run budget).2 = last := by
  have allowance_eq : machine.allowance budget = budget := by
    rw [Machine.allowance]
    omega
  obtain ⟨_, final, run_ends, outcome⟩ := Machine.run_spec budget machine
  rw [allowance_eq] at run_ends
  obtain ⟨-, rfl⟩ := ends.unique (batchEnds_of_runEnds run_ends)
  rcases outcome with ⟨-, ran⟩ | ⟨-, error, -, ran⟩
  · rw [ran]
  · rw [ran]

/-- A batch leaves the machine at the first one, cycle after cycle, that is halted,
faulty, at the end of the batch, or at a breakpoint that the batch has come to.
The debugger goes on running exactly if the batch did not end at a breakpoint, nor
early.  So no breakpoint is passed over, one that the batch starts from does not
hold it, and without breakpoints the batch leaves the machine of a run. -/
theorem tick_stops_at_first_pause (debugger : Debugger) (running : debugger.running = true)
    (counted : debugger.machine.cycles + debugger.cyclesPerTick ≤ maxCycles) :
    (∃ count last,
      BatchEnds debugger.breakpoints debugger.machine debugger.cyclesPerTick count last ∧
      debugger.tick.machine = last ∧
      (debugger.tick.running = false ↔
        HitsBreakpoint debugger.breakpoints last count ∨
          count < debugger.cyclesPerTick ∧
            (last.state = .halted ∨ ∃ error, last.step.1 = .error error)) ∧
      (∀ index middle, 0 < index → index < count →
        debugger.machine.afterCycles? index = some middle →
          middle.cpu.pc ∉ debugger.breakpoints) ∧
      (debugger.machine.StopsAt debugger.cyclesPerTick 0 ∨ 0 < count)) ∧
    (debugger.breakpoints = [] →
      debugger.tick.machine = (debugger.machine.run debugger.cyclesPerTick).2) := by
  obtain ⟨count, last, ends, outcome⟩ := tickFor_spec debugger.cyclesPerTick debugger running
  constructor
  · refine ⟨count, last, ends, outcome.machine_eq, outcome.running_eq_false_iff running, ?_,
      ends.stopsAt_or_pos⟩
    intro index middle started before reached
    exact ends.not_mem_of_lt started before reached
  · intro unmarked
    rw [unmarked] at ends
    rw [ends.eq_run counted]
    exact outcome.machine_eq

theorem ramSize_pos : 0 < ramSize := by
  decide

/-- A debugger with a program in the memory of its new machine. -/
def holding (program : List Word) (config : Config) (fits : program.length ≤ romSize) :
    Debugger where
  machine := (Machine.ofConfig config).withProgram program fits
  breakpoints := []
  running := false
  quitting := false
  status := .loaded program.length
  scroll := ⟨0, ramSize_pos⟩
  cyclesPerTick := 1000

theorem ofProgram_of_fits {program : List Word} (config : Config)
    (fits : program.length ≤ romSize) : ofProgram program config = holding program config fits := by
  rw [ofProgram, Machine.load_of_fits _ fits]
  rfl

/-- The debugger of the program `@1, 0;JMP` with a breakpoint at the jump, about to
run. -/
def marked : Debugger :=
  ((holding [0x0001, 0xEA87] {} (by decide)).addBreakpoint 1).2.run

/-- The batch of a marked program ends at the mark. -/
theorem tick_stops_at_mark :
    marked.running = true ∧ marked.machine.cycles + marked.cyclesPerTick ≤ maxCycles ∧
      ∃ last, BatchEnds marked.breakpoints marked.machine marked.cyclesPerTick 1 last ∧
        marked.tick.machine = last ∧ marked.tick.running = false := by
  have counted : marked.machine.cycles + marked.cyclesPerTick ≤ maxCycles := by
    decide
  have stepped : marked.machine.step = (.ok marked.machine.cycleInfo, marked.machine.next) :=
    Machine.step_of_not_faults _ (by decide +kernel)
  have hit : marked.machine.next.cpu.pc ∈ marked.breakpoints := by
    decide +kernel
  have goes_on : ¬marked.machine.StopsAt marked.cyclesPerTick 0 :=
    not_stopsAt_zero (by decide) (by decide) stepped
  obtain ⟨⟨count, last, ends, machine_eq, running_iff, -, -⟩, -⟩ :=
    tick_stops_at_first_pause marked rfl counted
  obtain ⟨rfl, rfl⟩ := ends.unique (batchEnds_one goes_on stepped hit)
  exact ⟨rfl, counted, _, ends, machine_eq, running_iff.2 (.inl ⟨Nat.one_pos, hit⟩)⟩

end HackComputer.Debugger
