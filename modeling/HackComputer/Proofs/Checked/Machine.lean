import HackComputer.Proofs.Checked.Access
import HackComputer.Proofs.Machine.Operation
import HackComputer.Proofs.Machine.SharedText

/-!
# Checked operations

The operations of a machine, from one memory access up to a list of operations, on
checked access.  Each has one theorem, which says that no check fails and that the
result is that of the operation without checks.  Only a count can fail: a step
needs a cycle counter below its greatest value, and a run one that has not passed
it.  Log records are left out: the only word that they take apart is one that its
cycle has taken apart.
-/

namespace HackComputer

namespace Checked

/-! ## Memory -/

/-- The word that a cycle reads at an address. -/
def read (memory : Memory) (address : Word) : Checked (Except MemoryError Word) := do
  match ← region address with
  | .ram index => return .ok (← cell memory.ram index.toNat)
  | .screen offset => return .ok (← cell memory.screen.words offset.toNat)
  | .keyboard => return .ok memory.keyboard
  | .unmapped low =>
    match memory.unmapped with
    | .ignore => return .ok 0
    | .fault => return .error (.unmappedAccess low)

/-- The clock edge of memory: store `value` if `load` is asserted. -/
def write (memory : Memory) (address value : Word) (load : Bool) :
    Checked (Except MemoryError Unit × Memory) :=
  if load then do
    match ← region address with
    | .ram index => return (.ok (), { memory with ram := ← setCell memory.ram index.toNat value })
    | .screen offset =>
      return (.ok (),
        { memory with screen := ⟨← setCell memory.screen.words offset.toNat value⟩ })
    | .keyboard => return (.ok (), memory)
    | .unmapped low =>
      match memory.unmapped with
      | .ignore => return (.ok (), memory)
      | .fault => return (.error (.unmappedAccess low), memory)
  else return (.ok (), memory)

/-- The RAM or screen word at an address, outside the clock. -/
def peek (memory : Memory) (address : Word) : Checked (Except MemoryError Word) :=
  if address.toNat ≤ 0x7FFF then do
    match ← region address with
    | .ram index => return .ok (← cell memory.ram index.toNat)
    | .screen offset => return .ok (← cell memory.screen.words offset.toNat)
    | _ => return .error (.addressOutOfRange address)
  else return .error (.addressOutOfRange address)

/-- Stores a RAM or screen word, outside the clock. -/
def poke (memory : Memory) (address value : Word) : Checked (Except MemoryError Unit × Memory) :=
  if address.toNat ≤ 0x7FFF then do
    match ← region address with
    | .ram index => return (.ok (), { memory with ram := ← setCell memory.ram index.toNat value })
    | .screen offset =>
      return (.ok (),
        { memory with screen := ⟨← setCell memory.screen.words offset.toNat value⟩ })
    | _ => return (.error (.addressOutOfRange address), memory)
  else return (.error (.addressOutOfRange address), memory)

section Memory

variable (memory : Memory) (address value : Word)

theorem toNat_ramIndex (index : Fin ramSize) : BitVec.toNat (.ofNat 64 index : Size) = index :=
  toNat_ofNat_index index (by decide)

theorem toNat_screenOffset (offset : Fin screenSize) :
    BitVec.toNat (.ofNat 64 offset : Size) = offset :=
  toNat_ofNat_index offset (by decide)

theorem read_eq : read memory address = .ok (memory.read address) := by
  rw [read, region_eq, ok_bind, Region.decode, Memory.read]
  cases Location.decode address with
  | ram index => simp only [Location.region, toNat_ramIndex, cell_eq, ok_bind, pure_eq_ok]
  | screen offset =>
      simp only [Location.region, toNat_screenOffset, cell_eq, ok_bind, pure_eq_ok, Screen.read]
  | keyboard => rfl
  | unmapped low => cases memory.unmapped <;> rfl

theorem write_eq (load : Bool) :
    write memory address value load = .ok (memory.write address value load) := by
  rw [write, Memory.write]
  cases load with
  | false => rfl
  | true =>
      rw [if_pos rfl, if_pos rfl, region_eq, ok_bind, Region.decode, Memory.store]
      cases Location.decode address with
      | ram index => simp only [Location.region, toNat_ramIndex, setCell_eq, ok_bind, pure_eq_ok]
      | screen offset =>
          simp only [Location.region, toNat_screenOffset, setCell_eq, ok_bind, pure_eq_ok,
            Screen.write]
      | keyboard => rfl
      | unmapped low => cases memory.unmapped <;> rfl

theorem peek_eq : peek memory address = .ok (memory.peek address) := by
  rw [peek, Memory.peek, Memory.direct]
  by_cases short : address.toNat < 0x8000
  · rw [if_pos short, if_pos (Nat.le_of_lt_succ short), region_eq, ok_bind, Region.decode]
    cases Location.decode address with
    | ram index => simp only [Location.region, toNat_ramIndex, cell_eq, ok_bind, pure_eq_ok]
    | screen offset =>
        simp only [Location.region, toNat_screenOffset, cell_eq, ok_bind, pure_eq_ok, Screen.read]
    | keyboard => rfl
    | unmapped low => rfl
  · rw [if_neg short, if_neg (fun le => short (Nat.lt_succ_of_le le))]
    rfl

theorem poke_eq : poke memory address value = .ok (memory.poke address value) := by
  rw [poke, Memory.poke, Memory.direct]
  by_cases short : address.toNat < 0x8000
  · rw [if_pos short, if_pos (Nat.le_of_lt_succ short), region_eq, ok_bind, Region.decode]
    cases Location.decode address with
    | ram index => simp only [Location.region, toNat_ramIndex, setCell_eq, ok_bind, pure_eq_ok]
    | screen offset =>
        simp only [Location.region, toNat_screenOffset, setCell_eq, ok_bind, pure_eq_ok,
          Screen.write]
    | keyboard => rfl
    | unmapped low => rfl
  · rw [if_neg short, if_neg (fun le => short (Nat.lt_succ_of_le le))]
    rfl

end Memory

/-! ## The processor -/

/-- Evaluates the arithmetic/logic unit on two words. -/
def compute (x y : Word) (flags : AluFlags) : Checked AluOutput := do
  let out := Alu.result x y flags
  return { out, zr := out == 0, ng := ← bit out 15 }

/-- The combinational half of a cycle. -/
def evaluate (cpu : Cpu) (word inM : Word) : Checked Evaluation := do
  let instruction ← decode word
  let signals := instruction.signals
  let y := match signals.ySource with
    | .register => cpu.a
    | .memory => inM
  let alu ← compute cpu.d y signals.alu
  let addressM ← slice cpu.a 14 0
  match instruction with
  | .address literal =>
    return { instruction, signals, alu
             nextA := some literal
             nextD := none
             jump := false
             outM := alu.out
             writeM := false
             addressM }
  | .compute fields =>
    return { instruction, signals, alu
             nextA := if fields.dest.a then some alu.out else none
             nextD := if fields.dest.d then some alu.out else none
             jump := fields.jump.isTaken alu.zr alu.ng
             outM := alu.out
             writeM := fields.dest.m
             addressM }

theorem compute_eq (x y : Word) (flags : AluFlags) :
    compute x y flags = .ok (Alu.compute x y flags) := by
  have sign : bit (Alu.result x y flags) 15 = .ok (Alu.result x y flags).msb := by
    rw [bit_eq, BitVec.msb_eq_getLsbD_last]
    rfl
  rw [compute, sign]
  rfl

theorem evaluate_eq (cpu : Cpu) (word inM : Word) :
    evaluate cpu word inM = .ok (cpu.evaluate word inM) := by
  simp only [evaluate, decode_eq, compute_eq, slice_literal, ok_bind, pure_eq_ok, Cpu.evaluate]
  cases Instruction.decode word with
  | address literal => rfl
  | compute fields => rfl

/-! ## One cycle -/

/-- Does the instruction take its operand from the keyboard? -/
def polls (evaluation : Evaluation) : Checked Bool :=
  if evaluation.signals.ySource == .memory then do
    return (← region evaluation.addressM) == .keyboard
  else return false

/-- Is `target` the address `pc` itself, or an instruction just before it that loads
`target`? -/
def loopsBack (rom : Rom) (pc target : Word) : Checked Bool :=
  if target == pc then return true
  else if (target + 1) &&& 0x7FFF == pc then do
    return (← decode (← fetch rom target)) == .address target
  else return false

/-- Does a taken jump close an idle loop? -/
def entersIdleLoop (machine : Machine) (evaluation : Evaluation) : Checked Bool :=
  let signals := evaluation.signals
  if signals.destA || signals.destD || signals.destM then return false
  else do
    if ← polls evaluation then return false
    else loopsBack machine.rom machine.cpu.pc evaluation.addressM

/-- The state after a cycle. -/
def nextState (machine : Machine) (evaluation : Evaluation) : Checked RunState :=
  if machine.resetLine then return .running
  else if machine.haltDetection && evaluation.jump then do
    return if ← entersIdleLoop machine evaluation then .halted else machine.state
  else return machine.state

/-- The memory word that an instruction takes as its operand, zero if it takes
none. -/
def operand (machine : Machine) (instruction : Instruction) : Checked (Except MemoryError Word) :=
  if instruction.readsMemory then do read machine.memory (← slice machine.cpu.a 14 0)
  else return .ok 0

/-- One clock cycle. -/
def step (machine : Machine) : Checked (Except MachineError StepInfo × Machine) := do
  let pc := machine.cpu.pc
  let word ← fetch machine.rom pc
  let instruction ← decode word
  match ← operand machine instruction with
  | .error cause => return (.error (.memory cause), machine)
  | .ok inM =>
    let evaluation ← evaluate machine.cpu word inM
    match ← write machine.memory evaluation.addressM evaluation.outM evaluation.writeM with
    | (.error cause, memory) => return (.error (.memory cause), { machine with memory })
    | (.ok (), memory) =>
      let cpu := machine.cpu.commit evaluation machine.resetLine
      let cycles ← sum machine.cycles 1
      let info : StepInfo := { pc, word, instruction, outputs := Cpu.outputs evaluation cpu.pc }
      let state ← nextState machine evaluation
      return (.ok info, { machine with cpu, memory, state, cycles, lastStep := some info })

section Cycle

variable {machine : Machine}

theorem region_beq_keyboard (address : Word) :
    (Region.decode address == .keyboard) = (Location.decode address == .keyboard) := by
  rw [Region.decode]
  cases Location.decode address <;> rfl

theorem polls_eq (evaluation : Evaluation) :
    polls evaluation =
      .ok (evaluation.signals.ySource == .memory &&
        Location.decode evaluation.addressM == .keyboard) := by
  rw [polls]
  split
  · rename_i memory
    rw [region_eq, ok_bind, pure_eq_ok, region_beq_keyboard, memory, Bool.true_and]
  · rename_i register
    rw [Bool.not_eq_true] at register
    rw [pure_eq_ok, register, Bool.false_and]

theorem loopsBack_eq (rom : Rom) (pc target : Word) :
    loopsBack rom pc target =
      .ok (target == pc ||
        (Word.low15 (target + 1) == pc &&
          Instruction.decode (rom.fetch target) == .address target)) := by
  rw [loopsBack, and_mask]
  split
  · rename_i here
    rw [here, Bool.true_or, pure_eq_ok]
  · rename_i elsewhere
    rw [Bool.not_eq_true] at elsewhere
    rw [elsewhere, Bool.false_or]
    split
    · rename_i before
      rw [fetch_eq, ok_bind, decode_eq, ok_bind, pure_eq_ok, before, Bool.true_and]
    · rename_i apart
      rw [Bool.not_eq_true] at apart
      rw [pure_eq_ok, apart, Bool.false_and]

/-- A taken jump belongs to a compute instruction, whose fields the control lines
carry. -/
theorem entersIdleLoop_eq (jumps : machine.evaluation.jump = true) :
    entersIdleLoop machine machine.evaluation =
      .ok (machine.cycleInfo.entersIdleLoop machine.rom) := by
  have addressM_eq : machine.evaluation.addressM = machine.cpu.addressM :=
    machine.cpu.evaluate_addressM _ _
  cases found : machine.instruction with
  | address literal =>
      obtain ⟨-, -, noJump⟩ := machine.cpu.evaluate_of_address machine.inM found
      exact absurd (noJump.symm.trans jumps) Bool.false_ne_true
  | compute fields =>
      have info_eq : machine.cycleInfo.instruction = .compute fields := found
      have signals_eq : machine.evaluation.signals = (Instruction.compute fields).signals :=
        (machine.cpu.evaluate_signals _ _).trans (congrArg Instruction.signals found)
      have destA_eq : machine.evaluation.signals.destA = fields.dest.a :=
        congrArg ControlSignals.destA signals_eq
      have destD_eq : machine.evaluation.signals.destD = fields.dest.d :=
        congrArg ControlSignals.destD signals_eq
      have destM_eq : machine.evaluation.signals.destM = fields.dest.m :=
        congrArg ControlSignals.destM signals_eq
      have ySource_eq : machine.evaluation.signals.ySource = fields.ySource :=
        congrArg ControlSignals.ySource signals_eq
      rw [entersIdleLoop, polls_eq, ok_bind, loopsBack_eq, destA_eq, destD_eq, destM_eq, ySource_eq,
        addressM_eq, StepInfo.entersIdleLoop, Machine.cycleInfo_jumps, jumps, Bool.true_and,
        StepInfo.storesNothing, StepInfo.readsKeyboard, info_eq, Machine.cycleInfo_addressM]
      simp only [Instruction.readsMemory, Dest.isEmpty]
      by_cases stores : (fields.dest.a || fields.dest.d || fields.dest.m) = true
      · rw [if_pos stores, stores, pure_eq_ok, Bool.not_true, Bool.false_and, Bool.false_and]
      · rw [if_neg stores, eq_false_of_ne_true stores, Bool.not_false, Bool.true_and]
        split
        · rename_i polls
          rw [polls, pure_eq_ok, Bool.not_true, Bool.false_and]
        · rename_i ignores
          rw [Bool.not_eq_true] at ignores
          rw [ignores, Bool.not_false, Bool.true_and]
          rfl

theorem nextState_eq :
    nextState machine machine.evaluation =
      .ok (machine.state.next machine.resetLine machine.haltDetection machine.rom
        machine.cycleInfo) := by
  rw [nextState, RunState.next]
  split
  · rfl
  · by_cases jumps : machine.evaluation.jump = true
    · rw [entersIdleLoop_eq jumps, jumps, Bool.and_true]
      cases machine.haltDetection <;> rfl
    · have stays : machine.cycleInfo.entersIdleLoop machine.rom = false := by
        rw [StepInfo.entersIdleLoop, Machine.cycleInfo_jumps, eq_false_of_ne_true jumps]
        rfl
      rw [stays, eq_false_of_ne_true jumps, Bool.and_false, if_neg Bool.false_ne_true,
        if_neg Bool.false_ne_true]
      rfl

theorem operand_eq (instruction : Instruction) :
    operand machine instruction = .ok (machine.operand instruction) := by
  rw [operand, Machine.operand]
  split
  · rw [slice_literal, ok_bind, read_eq]
    rfl
  · rfl

/-- The one check that a step can fail is that of its counter, and a cycle that is
refused does not come to it. -/
theorem step_spec :
    step machine =
      if machine.Faults then .ok machine.step
      else (sum machine.cycles 1).map fun _ => machine.step := by
  -- The outcomes of the read and the write decide both steps, and whether one is refused.
  have stepped := Machine.step.eq_1 machine
  dsimp only at stepped
  rw [step, fetch_eq, ok_bind, decode_eq, ok_bind, operand_eq, ok_bind]
  cases read : machine.operand (Instruction.decode (machine.rom.fetch machine.cpu.pc)) with
  | error cause =>
      rw [read] at stepped
      rw [if_pos (Machine.step_eq_error_iff.1 stepped).1, stepped]
      rfl
  | ok inM =>
      rw [read] at stepped
      obtain rfl := machine.inM_of_operand_eq_ok read
      dsimp only at stepped ⊢
      rw [evaluate_eq, ok_bind, write_eq, ok_bind]
      rw [← Machine.evaluation] at stepped ⊢
      rcases written : machine.memory.write machine.evaluation.addressM _ _ with
        ⟨cause | ⟨⟩, memory⟩
      · rw [written] at stepped
        rw [if_pos (Machine.step_eq_error_iff.1 stepped).1, stepped]
        rfl
      · rw [written] at stepped
        rw [if_neg (Machine.step_eq_ok_iff.1 stepped).1, stepped, sum]
        dsimp only
        split
        · rw [ok_bind, nextState_eq, ok_bind]
          rfl
        · rfl

/-- A cycle that the counter can count passes all checks. -/
theorem step_eq (counts : machine.cycles < maxCycles) : step machine = .ok machine.step := by
  have counted : sum machine.cycles 1 = .ok (machine.cycles + 1) :=
    if_pos (Nat.succ_lt_succ counts)
  rw [step_spec, counted]
  split
  · rfl
  · rfl

/-- A cycle that passes all checks is a cycle. -/
theorem eq_step_of_step_eq_ok {answer : Except MachineError StepInfo × Machine}
    (checked : step machine = .ok answer) : answer = machine.step := by
  rw [step_spec] at checked
  split at checked
  · exact (Except.ok.inj checked).symm
  · rcases counted : sum machine.cycles 1 with violation | cycles
    · rw [counted] at checked
      contradiction
    · rw [counted] at checked
      exact (Except.ok.inj checked).symm

end Cycle

/-! ## Operations -/

/-- A cycle, and what is made of its failure or of the machine after it, on which
the counter has advanced.  A check that fails goes before both. -/
def stepThen {Result : Type} (machine : Machine)
    (failed : MachineError → Machine → Checked Result)
    (advanced : StepInfo → (after : Machine) → after.cycles = machine.cycles + 1 → Checked Result) :
    Checked Result :=
  match checked : step machine with
  | .error violation => .error violation
  | .ok (.error error, after) => failed error after
  | .ok (.ok info, after) =>
    advanced info after (Machine.cycles_of_step (eq_step_of_step_eq_ok checked).symm)

/-- Steps while the machine is running and its counter is below `limit`, unless a
step fails. -/
def runUntil (limit : Nat) (machine : Machine) : Checked (Except MachineError Unit × Machine) :=
  if machine.state = .running ∧ machine.cycles < limit then
    stepThen machine (fun error after => return (.error error, after))
      fun _ after _ => runUntil limit after
  else return (.ok (), machine)
termination_by limit - machine.cycles

/-- Runs until halted or out of budget, and gives the number of cycles. -/
def run (machine : Machine) (budget : Nat) : Checked (Except MachineError Nat × Machine) := do
  let start := machine.cycles
  match ← runUntil (machine.cycleLimit budget) machine with
  | (.error error, after) => return (.error error, after)
  | (.ok (), after) => return (.ok (← difference after.cycles start), after)

/-- Replaces the program and starts it at address 0. -/
def load (machine : Machine) (program : List Word) : Checked (Except MachineError Unit × Machine) :=
  if romSize < program.length then
    return (.error (.memory (.programTooLarge program.length)), machine)
  else do
    let loaded ← copy .zero 0 program
    return (.ok (),
      { machine with
        cpu := machine.cpu.setPc 0
        rom := ⟨loaded.cells, program.length⟩
        state := .running
        cycles := 0
        lastStep := none })

/-- The report on an operation, and the machine after it. -/
def operate (machine : Machine) : Operation → Checked (Report × Machine)
  | .stimulus .step => do
    let answer ← step machine
    return (answer.1.map fun _ => (), answer.2)
  | .stimulus (.setKeyboard key) => return (.ok (), machine.setKeyboard key)
  | .stimulus (.setReset asserted) => return (.ok (), machine.setReset asserted)
  | .stimulus (.poke address value) => do
    let answer ← poke machine.memory address value
    return (answer.1.mapError .memory, { machine with memory := answer.2 })
  | .stimulus .reset => return (.ok (), machine.reset)
  | .run budget => do
    let answer ← run machine budget
    return (answer.1.map fun _ => (), answer.2)
  | .load program => load machine program

/-- The machine after a list of operations. -/
def after (machine : Machine) (operations : List Operation) : Checked Machine :=
  operations.foldlM (fun machine operation => do return (← operate machine operation).2) machine

section Operations

variable {machine : Machine}

theorem stepThen_eq {Result : Type} {failed : MachineError → Machine → Checked Result}
    {advanced : StepInfo → (after : Machine) → after.cycles = machine.cycles + 1 → Checked Result}
    (counts : machine.cycles < maxCycles) :
    stepThen machine failed advanced = machine.stepThen failed advanced := by
  have checked := step_eq counts
  rw [stepThen]
  -- The outcome of the step decides which case of the checked one is met.
  rcases stepped : machine.step with ⟨error | info, after⟩
  · rw [Machine.stepThen_of_error stepped]
    rw [stepped] at checked
    split <;> rename_i checked' <;> cases checked.symm.trans checked'
    rfl
  · rw [Machine.stepThen_of_ok stepped]
    rw [stepped] at checked
    split <;> rename_i checked' <;> cases checked.symm.trans checked'
    rfl

/-- Below a limit that the counter can reach every cycle can be counted. -/
theorem runUntil_eq {limit : Nat} (reachable : limit ≤ maxCycles) (machine : Machine) :
    runUntil limit machine = .ok (Machine.runUntil limit machine) := by
  induction machine using Machine.runUntil.induct limit with
  | case1 machine goesOn inductionHypothesis =>
      rw [runUntil, Machine.runUntil, if_pos goesOn, if_pos goesOn,
        stepThen_eq (Nat.lt_of_lt_of_le goesOn.2 reachable)]
      rcases stepped : machine.step with ⟨error | info, after⟩
      · rw [Machine.stepThen_of_error stepped, Machine.stepThen_of_error stepped]
        rfl
      · rw [Machine.stepThen_of_ok stepped, Machine.stepThen_of_ok stepped]
        exact inductionHypothesis after (Machine.cycles_of_step stepped)
  | case2 machine ended =>
      rw [runUntil, Machine.runUntil, if_neg ended, if_neg ended]
      rfl

theorem run_eq (budget : Nat) : run machine budget = .ok (machine.run budget) := by
  have reachable : machine.cycleLimit budget ≤ maxCycles := Nat.min_le_right _ _
  rw [run, runUntil_eq reachable, ok_bind, Machine.run]
  obtain ⟨count, -, counted⟩ := machine.cycles_runFor (machine.allowance budget)
  rw [← Machine.cycleLimit_sub_cycles, ← Machine.runUntil_eq_runFor] at counted
  rcases ran : Machine.runUntil (machine.cycleLimit budget) machine with ⟨error | ⟨⟩, after⟩
  · rfl
  · rw [ran] at counted
    have ordered : machine.cycles ≤ after.cycles := Nat.le.intro counted.symm
    dsimp only
    rw [difference, if_pos ordered, ok_bind]
    rfl

theorem load_eq (program : List Word) : load machine program = .ok (machine.load program) := by
  rw [load]
  by_cases fits : program.length ≤ romSize
  · rw [if_neg (Nat.not_lt_of_le fits), copy_program fits, ok_bind, machine.load_of_fits fits]
    rfl
  · rw [if_pos (Nat.lt_of_not_le fits), machine.load_of_not_fits fits]
    rfl

theorem operate_eq {operation : Operation}
    (steps : operation = .stimulus .step → machine.cycles < maxCycles) :
    operate machine operation = .ok (machine.operate operation) := by
  cases operation with
  | run budget =>
      rw [operate, run_eq, ok_bind]
      rfl
  | load program => exact load_eq program
  | stimulus stimulus =>
      cases stimulus with
      | step =>
          rw [operate, step_eq (steps rfl), ok_bind]
          rfl
      | setKeyboard key => rfl
      | setReset asserted => rfl
      | poke address value =>
          rw [operate, poke_eq, ok_bind]
          rfl
      | reset => rfl

end Operations

end Checked

/-! ## Lists of operations -/

/-- Does every step of the list begin with a counter that can count it? -/
def Machine.Counts (machine : Machine) : List Operation → Prop
  | [] => True
  | operation :: rest =>
    (operation = .stimulus .step → machine.cycles < maxCycles) ∧
      (machine.operate operation).2.Counts rest

variable {machine : Machine}

/-- No operation takes the counter past its greatest value. -/
theorem Machine.cycles_operate_le {operation : Operation} (counts : machine.cycles ≤ maxCycles)
    (steps : operation = .stimulus .step → machine.cycles < maxCycles) :
    (machine.operate operation).2.cycles ≤ maxCycles := by
  cases operation with
  | run budget =>
      obtain ⟨count, within, counted⟩ := machine.cycles_runFor (machine.allowance budget)
      rw [Machine.operate, Machine.run_snd, counted]
      rw [Machine.allowance] at within
      omega
  | load program =>
      by_cases fits : program.length ≤ romSize
      · rw [Machine.operate, machine.load_of_fits fits]
        exact Nat.zero_le _
      · rw [Machine.operate, machine.load_of_not_fits fits]
        exact counts
  | stimulus stimulus =>
      cases stimulus with
      | step =>
          change machine.step.2.cycles ≤ maxCycles
          by_cases faults : machine.Faults
          · rw [Machine.step_of_faults machine faults]
            exact counts
          · rw [Machine.step_of_not_faults machine faults]
            exact steps rfl
      | setKeyboard key => exact counts
      | setReset asserted => exact counts
      | poke address value => exact counts
      | reset => exact counts

theorem Checked.after_eq {operations : List Operation} (start : machine.cycles ≤ maxCycles)
    (counts : machine.Counts operations) :
    Checked.after machine operations = .ok (machine.after operations) ∧
      (machine.after operations).cycles ≤ maxCycles := by
  induction operations generalizing machine with
  | nil => exact ⟨rfl, start⟩
  | cons operation rest inductionHypothesis =>
      obtain ⟨steps, counts⟩ := counts
      have next := Machine.cycles_operate_le start steps
      rw [Checked.after, List.foldlM_cons, Checked.operate_eq steps, Machine.after_cons]
      exact inductionHypothesis next counts

end HackComputer
