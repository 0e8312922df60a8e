import HackComputer.CommandLine
import HackComputer.Proofs.Machine.Operation
import HackComputer.Proofs.ProgramFile.SourceLine

/-!
# Reports on faults

A machine that executes the instructions of a file faults on an instruction of
the file, so the report on the fault names the line on which it stands.
-/

namespace HackComputer.CommandLine

open ProgramFile

/-- Stored assignments are pokes. -/
theorem eq_after_of_store {machine ready : Machine} {assignments : List Assignment}
    (stored : store machine assignments = .ok ready) :
    ready = machine.after (assignments.map fun assignment =>
      .stimulus (.poke assignment.address assignment.value)) := by
  induction assignments generalizing machine with
  | nil => exact (Except.ok.inj stored).symm
  | cons assignment rest inductionHypothesis =>
      rw [store] at stored
      rcases poked : machine.poke assignment.address assignment.value with ⟨error | ⟨⟩, after⟩
      · rw [poked] at stored
        contradiction
      · rw [poked] at stored
        have after_eq : (machine.operate
            (.stimulus (.poke assignment.address assignment.value))).2 = after :=
          congrArg Prod.snd poked
        rw [List.map_cons, Machine.after_cons, after_eq]
        exact inductionHypothesis stored

theorem executes_of_store {loaded ready : Machine} {program : List Word}
    {assignments : List Assignment} (executes : loaded.Executes program)
    (stored : store loaded assignments = .ok ready) : ready.Executes program := by
  rw [eq_after_of_store stored]
  exact executes.after (by simp [Operation.keepsProgram])

/-- Asking for log lines does not change a run. -/
theorem runMachine_snd (machine : Machine) (options : RunOptions) :
    (runMachine machine options).2 = machine.run options.maxCycles := by
  rw [runMachine]
  split
  · have unlogged := Machine.runUntilLogged_snd (machine.cycleLimit options.maxCycles) [] machine
    rw [Machine.runLogged, Machine.run, ← unlogged]
    rcases Machine.runUntilLogged (machine.cycleLimit options.maxCycles) [] machine with
      ⟨log, error | ⟨⟩, after⟩
    · rfl
    · rfl
  · rfl

variable {bytes : List UInt8} {file : ProgramFile}

theorem executes_of_ofBytes (accepted : ofBytes bytes = .ok file) (machine : Machine) :
    (machine.load file.instructions).1 = .ok () ∧
      (machine.load file.instructions).2.Executes file.instructions := by
  obtain ⟨-, fits⟩ := eq_ofReadings_of_ofBytes accepted
  refine ⟨?_, Machine.executes_of_load fits⟩
  rw [machine.load_of_fits fits]

/-- The line of a fault of a machine that executes the instructions of a file. -/
theorem exists_line_of_fault (accepted : ofBytes bytes = .ok file) {machine : Machine}
    (executes : machine.Executes file.instructions) {error : MachineError}
    (failed : machine.step = (.error error, machine)) :
    ∃ number, file.sourceLine? machine.cpu.pc = some number ∧
      StandsOn bytes number (machine.rom.fetch machine.cpu.pc) := by
  obtain ⟨faults, -, -⟩ := Machine.step_eq_error_iff.1 failed
  exact standsOn_sourceLine accepted (executes.getElem?_pc_of_faults faults)

theorem faultText_of_sourceLine {pc : Word} {number : Nat}
    (found : file.sourceLine? pc = some number) (error : MachineError) :
    faultText file pc error =
      "Machine error at " ++ s!"PC={pc.toNat} (line {number})" ++ ": " ++ error.message := by
  unfold faultText
  simp only [found]

/-- What a run of the command line leaves if its machine fails. -/
theorem runProgram_of_fault (path : String) {config : Config} {options : RunOptions}
    {loaded ready last : Machine} {error : MachineError}
    (loads : (Machine.ofConfig config).load file.instructions = (.ok (), loaded))
    (stored : store loaded options.assignments = .ok ready)
    (failed : (runMachine (ready.setKeyboard options.keyboard) options).2 = (.error error, last)) :
    ∃ records, runProgram file path config options =
      .failure s!"🔧 Running: {path} ({file.size} instructions)\n" records
        (faultText file last.cpu.pc error) := by
  rcases ran : runMachine (ready.setKeyboard options.keyboard) options with ⟨records, result⟩
  rw [ran] at failed
  obtain rfl : result = (.error error, last) := failed
  rw [runProgram, loads]
  simp only [stored, ran]
  exact ⟨_, rfl⟩

/-- A program file that is accepted can be loaded into every machine.  Whatever
is done to the machine from then on, short of loading another program: where a
cycle or a run fails, the program counter is left at an instruction of the file,
and the line that the file remembers for it starts with this instruction.  The
command line reports every fault with such a line. -/
theorem fault_is_reported_on_its_line (accepted : ofBytes bytes = .ok file) :
    (∀ machine : Machine, (machine.load file.instructions).1 = .ok () ∧
      ∀ operations : List Operation, (∀ operation ∈ operations, operation.keepsProgram = true) →
        ∀ operation : Operation, operation.isClocked = true → ∀ error last,
          ((machine.load file.instructions).2.after operations).operate operation =
            (.error error, last) →
          last.step = (.error error, last) ∧
            ∃ number, file.sourceLine? last.cpu.pc = some number ∧
              StandsOn bytes number (last.rom.fetch last.cpu.pc)) ∧
    ∀ path config options ready error last,
      store ((Machine.ofConfig config).load file.instructions).2 options.assignments = .ok ready →
      (runMachine (ready.setKeyboard options.keyboard) options).2 = (.error error, last) →
      ∃ number records, StandsOn bytes number (last.rom.fetch last.cpu.pc) ∧
        runProgram file path config options =
          .failure s!"🔧 Running: {path} ({file.size} instructions)\n" records
            ("Machine error at " ++ s!"PC={last.cpu.pc.toNat} (line {number})" ++ ": " ++
              error.message) := by
  constructor
  · intro machine
    obtain ⟨loads, executes⟩ := executes_of_ofBytes accepted machine
    refine ⟨loads, ?_⟩
    intro operations keep operation clocked error last failed
    have stuck := Machine.step_of_operate_eq_error clocked failed
    have executes_last :=
      (executes.after keep).operate (Operation.keepsProgram_of_isClocked clocked)
    rw [failed] at executes_last
    exact ⟨stuck, exists_line_of_fault accepted executes_last stuck⟩
  · intro path config options ready error last stored failed
    obtain ⟨loads, executes⟩ := executes_of_ofBytes accepted (Machine.ofConfig config)
    have outcome := runProgram_of_fault path (Prod.ext loads rfl) stored failed
    rw [runMachine_snd] at failed
    have executes_ready := (executes_of_store executes stored).respond (.setKeyboard options.keyboard)
    have executes_last := executes_ready.run options.maxCycles
    rw [Machine.respond, failed] at executes_last
    obtain ⟨number, found, stands⟩ := exists_line_of_fault accepted executes_last
      (Machine.step_of_run_eq_error failed)
    rw [faultText_of_sourceLine found] at outcome
    obtain ⟨records, outcome⟩ := outcome
    exact ⟨number, records, stands, outcome⟩

/-- The second instruction of a program, behind a comment, writes to an unmapped
address. -/
theorem fault_is_reported_on_line_three :
    let source := "// @24577 and M=1\n0110000000000001\n1110111111001000\n"
    let file : ProgramFile := ⟨#[⟨0x6001, 2⟩, ⟨0xEFC8, 3⟩]⟩
    let machine := ((Machine.ofConfig ⟨.fault, true⟩).withProgram file.instructions (by decide)).after
      [.stimulus .step]
    ofText source = .ok file ∧
      ∃ error last, machine.operate (.stimulus .step) = (.error error, last) ∧
        StandsOn source.toUTF8.toList 3 (last.rom.fetch last.cpu.pc) := by
  intro source file machine
  have accepted : ofText source = .ok file := by decide +kernel
  have failed : (machine.operate (.stimulus .step)).1 =
      .error (.memory (.unmappedAccess 0x6001)) := by decide +kernel
  have pc_eq : (machine.operate (.stimulus .step)).2.cpu.pc = 1 := by decide +kernel
  have reported := ((fault_is_reported_on_its_line accepted).1 (Machine.ofConfig ⟨.fault, true⟩)).2
  rw [Machine.load_of_fits _ (by decide)] at reported
  obtain ⟨-, number, found, stands⟩ := reported [.stimulus .step] (by decide) (.stimulus .step) rfl
    _ _ (Prod.ext failed rfl)
  rw [pc_eq] at found
  obtain rfl : 3 = number := Option.some.inj found
  exact ⟨accepted, _, _, Prod.ext failed rfl, stands⟩

end HackComputer.CommandLine
