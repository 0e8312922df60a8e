import HackComputer.Proofs.Checked.Machine
import HackComputer.Proofs.Machine.History

/-!
# Reachable machines

A machine is reachable if operations lead to it from a new one.  Program memory of a
reachable machine holds the program that its history has last seen loaded, its program
counter stays on the address bus, and its cycle counter does not overflow.  So no
operation on a reachable machine fails a check.
-/

namespace HackComputer

namespace Occurrence

/-- The program that is loaded. -/
def program? : Occurrence → Option (List Word)
  | .loaded program => some program
  | .cycle .. | .restarted => none

/-- The last program that was loaded, the empty one if none was. -/
def lastLoaded (history : List Occurrence) : List Word :=
  (history.filterMap program?).getLastD []

variable (history : List Occurrence)

@[simp]
theorem lastLoaded_cycle (start : Machine) (info : StepInfo) :
    lastLoaded (history ++ [.cycle start info]) = lastLoaded history := by
  simp [lastLoaded, program?]

@[simp]
theorem lastLoaded_restarted : lastLoaded (history ++ [.restarted]) = lastLoaded history := by
  simp [lastLoaded, program?]

@[simp]
theorem lastLoaded_loaded (program : List Word) :
    lastLoaded (history ++ [.loaded program]) = program := by
  simp [lastLoaded, program?]

end Occurrence

open Occurrence

namespace Machine

/-- The machine holds the program that was loaded last, and its program counter has
no more than fifteen bits. -/
structure Holds (history : List Occurrence) (machine : Machine) : Prop where
  rom_eq : ∃ fits : (lastLoaded history).length ≤ romSize,
    machine.rom = .holding (lastLoaded history) fits
  low15_pc : machine.cpu.pc.low15 = machine.cpu.pc

theorem holds_ofConfig (config : Config) : Holds [] (ofConfig config) where
  rom_eq := ⟨Nat.zero_le romSize, Rom.zero_eq_holding⟩
  low15_pc := rfl

/-- Only a load changes the program, and whatever sets the program counter cuts it
off. -/
theorem tracks_holds : Tracks Holds where
  cycle holds stepped := by
    obtain ⟨-, rfl, rfl⟩ := step_eq_ok_iff.1 stepped
    exact ⟨by rw [lastLoaded_cycle]; exact holds.rom_eq, low15_pc_next⟩
  loaded _ loaded := by
    obtain ⟨fits, rfl⟩ := load_eq_ok_iff.1 loaded
    exact ⟨by rw [lastLoaded_loaded]; exact ⟨fits, rfl⟩, rfl⟩
  restarted holds := ⟨by rw [lastLoaded_restarted]; exact holds.rom_eq, rfl⟩
  input holds _ _ := ⟨holds.rom_eq, holds.low15_pc⟩

/-- After any operations on a new machine, none of which steps with the counter at its
greatest value: storage has its size; the program counter has fifteen bits; program
memory holds the program loaded last, or none, and zeros after it; and neither these
operations nor any further one fails a check.  A program that does not fit is refused
and changes nothing. -/
theorem reachable_holds_program_and_checks (config : Config) (operations : List Operation)
    (counts : (ofConfig config).Counts operations) :
    let program := lastLoaded ((ofConfig config).history operations)
    let machine := (ofConfig config).after operations
    (machine.memory.ram.cells.toList.length = 16384 ∧
      machine.memory.screen.words.cells.toList.length = 8192 ∧
      machine.rom.words.toList.length = 32768) ∧
    machine.cpu.pc.toNat ≤ 0x7FFF ∧
    (machine.rom.words.toList = program ++ List.replicate (32768 - program.length) 0 ∧
      machine.rom.loaded = program.length) ∧
    Checked.after (ofConfig config) operations = .ok machine ∧
    (∀ operation, (operation = .stimulus .step → machine.cycles < maxCycles) →
      Checked.operate machine operation = .ok (machine.operate operation)) ∧
    (∀ address, Checked.peek machine.memory address = .ok (machine.peek address)) ∧
    ∀ large : List Word, 32768 < large.length →
      machine.load large = (.error (.memory (.programTooLarge large.length)), machine) := by
  intro program machine
  obtain ⟨⟨fits, rom_eq⟩, low15_pc⟩ : Holds ([] ++ (ofConfig config).history operations) machine :=
    tracks_holds.after operations (holds_ofConfig config)
  obtain ⟨checked, counted⟩ := Checked.after_eq (Nat.zero_le maxCycles) counts
  refine ⟨⟨Vector.length_toList, Vector.length_toList, Vector.length_toList⟩,
    Nat.le_of_lt_succ (Word.low15_eq_self_iff.1 low15_pc), ⟨?_, ?_⟩, checked, ?_, ?_, ?_⟩
  · rw [rom_eq]
    rfl
  · rw [rom_eq]
    rfl
  · intro operation steps
    exact Checked.operate_eq steps
  · intro address
    exact Checked.peek_eq machine.memory address
  · intro large tooLarge
    exact machine.load_of_not_fits (Nat.not_le_of_lt tooLarge)

/-- A new machine with the program `@7, D=A`. -/
def loadingSeven : Machine :=
  (ofConfig {}).withProgram [0x0007, 0xEC10] (by decide)

/-- Loading the program of `loadingSeven` and executing its first word. -/
def loadAndStep : List Operation :=
  [.load [0x0007, 0xEC10], .stimulus .step]

theorem operate_loadAndStep :
    (ofConfig {}).operate (.load [0x0007, 0xEC10]) = (.ok (), loadingSeven) ∧
      loadingSeven.operate (.stimulus .step) = (.ok (), loadingSeven.next) ∧
      loadingSeven.next.operate (.stimulus .step) = (.ok (), loadingSeven.next.next) := by
  refine ⟨?_, ?_, ?_⟩
  · rw [operate]
    exact load_of_fits _ _
  · rw [operate, respond, step_of_ignore rfl]
    rfl
  · rw [operate, respond, step_of_ignore unmapped_next]
    rfl

theorem history_loadAndStep :
    (ofConfig {}).history loadAndStep =
      [] ++ [.loaded [0x0007, 0xEC10]] ++ [.cycle loadingSeven loadingSeven.cycleInfo] := by
  have step : loadingSeven.step = (.ok loadingSeven.cycleInfo, loadingSeven.next) :=
    step_of_ignore rfl
  have loaded_history : (ofConfig {}).history loadAndStep =
      .loaded [0x0007, 0xEC10] :: loadingSeven.history [.stimulus .step] :=
    history_load_cons _ _ _
  rw [loaded_history, history, occurrences, cycle?, step]
  rfl

/-- The machine that `loadAndStep` leads to holds its program, and executes the second
word of it with all checks. -/
theorem loadAndStep_holds_program :
    (ofConfig {}).Counts loadAndStep ∧
    ((ofConfig {}).after loadAndStep).rom.words.toList =
      [0x0007, 0xEC10] ++ List.replicate (32768 - 2) 0 ∧
    ((ofConfig {}).after loadAndStep).rom.loaded = 2 ∧
    ∃ machine last, Checked.after (ofConfig {}) loadAndStep = .ok machine ∧
      Checked.operate machine (.stimulus .step) = .ok (.ok (), last) ∧ last.cpu.d = 7 := by
  obtain ⟨load, first, second⟩ := operate_loadAndStep
  have counts : (ofConfig {}).Counts loadAndStep := by
    refine ⟨fun isStep => Operation.noConfusion isStep, fun _ => ?_, trivial⟩
    rw [load]
    decide
  have after_eq : (ofConfig {}).after loadAndStep = loadingSeven.next := by
    rw [loadAndStep, after_cons, load, after_cons, first]
    rfl
  obtain ⟨-, -, ⟨words_eq, loaded_eq⟩, checked, operates, -⟩ :=
    reachable_holds_program_and_checks {} loadAndStep counts
  rw [history_loadAndStep, lastLoaded_cycle, lastLoaded_loaded] at words_eq loaded_eq
  have counted : loadingSeven.next.cycles < maxCycles := by decide
  rw [after_eq] at checked operates
  have operated := operates (.stimulus .step) fun _ => counted
  rw [second] at operated
  exact ⟨counts, words_eq, loaded_eq, _, _, checked, operated, by decide +kernel⟩

end Machine

end HackComputer
