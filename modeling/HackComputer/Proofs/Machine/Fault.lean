import HackComputer.Proofs.Machine.Cycle
import HackComputer.Proofs.Machine.Stimulus

/-!
# Faults

When a cycle is refused, and what stays true after it was.  Whether a cycle is
refused depends on the processor, program memory and the policy alone, so a
refused cycle is refused again until one of them changes.
-/

namespace HackComputer.Machine

variable {machine : Machine}

@[simp]
theorem unmapped_next : machine.next.memory.unmapped = machine.memory.unmapped := by
  simp only [next]
  split
  · exact Memory.unmapped_store _ _ _
  · rfl

/-- A step never changes the policy for unmapped addresses. -/
theorem unmapped_step : machine.step.2.memory.unmapped = machine.memory.unmapped := by
  by_cases faults : machine.Faults
  · rw [step_of_faults machine faults]
  · rw [step_of_not_faults machine faults]
    exact unmapped_next

/-- The condition of a fault, written out. -/
theorem faults_iff :
    machine.Faults ↔
      machine.memory.unmapped = .fault ∧ keyboardAddress < machine.cpu.addressM.toNat ∧
        ∃ fields, Instruction.decode (machine.rom.fetch machine.cpu.pc) = .compute fields ∧
          (fields.ySource = .memory ∨ fields.dest.m = true) := by
  rw [Faults, Memory.Traps, addressM_low15, Instruction.usesMemory_eq_true_iff, and_assoc]
  rfl

theorem not_faults_of_ignore (ignores : machine.memory.unmapped = .ignore) : ¬machine.Faults :=
  fun faults => Memory.not_traps_of_ignore _ _ ignores faults.1

/-- Faults carry over to every machine with the same processor, program memory
and policy. -/
theorem Faults.congr {other : Machine} (faults : machine.Faults) (cpu_eq : other.cpu = machine.cpu)
    (rom_eq : other.rom = machine.rom)
    (unmapped_eq : other.memory.unmapped = machine.memory.unmapped) : other.Faults := by
  rw [faults_iff] at faults ⊢
  rwa [cpu_eq, rom_eq, unmapped_eq]

/-! ## Machines that ignore unmapped accesses -/

theorem step_of_ignore (ignores : machine.memory.unmapped = .ignore) :
    machine.step = (.ok machine.cycleInfo, machine.next) :=
  step_of_not_faults machine (not_faults_of_ignore ignores)

theorem runUntil_of_ignore (limit : Nat) (machine : Machine)
    (ignores : machine.memory.unmapped = .ignore) :
    ∃ after, runUntil limit machine = (.ok (), after) := by
  induction machine using runUntil.induct limit with
  | case1 machine goesOn inductionHypothesis =>
      have stepped := step_of_ignore ignores
      rw [runUntil, if_pos goesOn, stepThen_of_ok stepped]
      exact inductionHypothesis machine.next (cycles_of_step stepped)
        (unmapped_next.trans ignores)
  | case2 machine ended => exact ⟨machine, by rw [runUntil, if_neg ended]⟩

theorem run_of_ignore (budget : Nat) (ignores : machine.memory.unmapped = .ignore) :
    ∃ count after, machine.run budget = (.ok count, after) := by
  obtain ⟨after, ran⟩ := runUntil_of_ignore (machine.cycleLimit budget) machine ignores
  exact ⟨after.cycles - machine.cycles, after, by rw [run, ran]⟩

/-- No stimulus changes the policy for unmapped addresses. -/
theorem unmapped_respond (stimulus : Stimulus) :
    (machine.respond stimulus).2.memory.unmapped = machine.memory.unmapped := by
  cases stimulus with
  | step => exact unmapped_step
  | setKeyboard key => rfl
  | setReset asserted => rfl
  | poke address value =>
      simp only [respond, poke, Memory.poke_eq]
      split
      · exact Memory.unmapped_store _ _ _
      · rfl
  | reset => rfl

theorem drive_of_ignore (ignores : machine.memory.unmapped = .ignore) (stimuli : List Stimulus) :
    List.Forall₂ (fun stimulus report => stimulus = .step → report = .ok ())
      stimuli (machine.drive stimuli).1 := by
  have kept : ∀ other : Machine, other.memory.unmapped = .ignore → ∀ stimulus ∈ stimuli,
      (other.respond stimulus).2.memory.unmapped = .ignore ∧
        (stimulus = .step → (other.respond stimulus).1 = .ok ()) := by
    intro other ignores stimulus _
    constructor
    · exact (unmapped_respond stimulus).trans ignores
    · rintro rfl
      rw [respond, step_of_ignore ignores]
      rfl
  exact (Stimulus.drive_preserves (fun other : Machine => other.memory.unmapped = .ignore)
    (fun stimulus report => stimulus = .step → report = .ok ()) kept ignores).2

/-! ## Machines that have faulted -/

theorem drive_of_faults (faults : machine.Faults) {stimuli : List Stimulus}
    (lines : ∀ stimulus ∈ stimuli, stimulus.isClockOrLine = true) :
    List.Forall₂ (fun stimulus report => stimulus = .step → report = .error machine.fault)
      stimuli (machine.drive stimuli).1 := by
  have kept : ∀ other : Machine, (other.Faults ∧ other.fault = machine.fault) →
      ∀ stimulus ∈ stimuli,
        ((other.respond stimulus).2.Faults ∧ (other.respond stimulus).2.fault = machine.fault) ∧
          (stimulus = .step → (other.respond stimulus).1 = .error machine.fault) := by
    rintro other ⟨faults, fault_eq⟩ stimulus member
    cases stimulus with
    | step =>
        rw [respond, step_of_faults other faults]
        exact ⟨⟨faults, fault_eq⟩, fun _ => congrArg Except.error fault_eq⟩
    | setKeyboard key => exact ⟨⟨faults.congr rfl rfl rfl, fault_eq⟩, nofun⟩
    | setReset asserted => exact ⟨⟨faults.congr rfl rfl rfl, fault_eq⟩, nofun⟩
    | poke address value => exact absurd (lines _ member) Bool.false_ne_true
    | reset => exact absurd (lines _ member) Bool.false_ne_true
  exact (Stimulus.drive_preserves
    (fun other : Machine => other.Faults ∧ other.fault = machine.fault)
    (fun stimulus report => stimulus = .step → report = .error machine.fault) kept
    ⟨faults, rfl⟩).2

/-- A cycle fails exactly if a compute instruction reads or writes memory at an
unmapped address while the policy forbids it.  The failure names the address and
leaves the whole machine as it was.  So a machine that ignores unmapped accesses
never fails, and one that has failed fails in the same way at every further
cycle, however its input lines are set. -/
theorem step_eq_error_iff_and_stays (machine : Machine) :
    (∀ error after, machine.step = (.error error, after) ↔
      (machine.memory.unmapped = .fault ∧ keyboardAddress < machine.cpu.addressM.toNat ∧
        ∃ fields, Instruction.decode (machine.rom.fetch machine.cpu.pc) = .compute fields ∧
          (fields.ySource = .memory ∨ fields.dest.m = true)) ∧
        error = .memory (.unmappedAccess machine.cpu.addressM) ∧ after = machine) ∧
    (machine.memory.unmapped = .ignore →
      (∀ budget, ∃ count after, machine.run budget = (.ok count, after)) ∧
      ∀ stimuli, List.Forall₂ (fun stimulus report => stimulus = .step → report = .ok ())
        stimuli (machine.drive stimuli).1) ∧
    (∀ error after, machine.step = (.error error, after) →
      ∀ stimuli : List Stimulus, (∀ stimulus ∈ stimuli, stimulus.isClockOrLine = true) →
        List.Forall₂ (fun stimulus report => stimulus = .step → report = .error error)
          stimuli (after.drive stimuli).1) := by
  constructor
  · intro error after
    rw [step_eq_error_iff, faults_iff]
    rfl
  constructor
  · intro ignores
    exact ⟨fun budget => run_of_ignore budget ignores, drive_of_ignore ignores⟩
  · intro error after failed stimuli lines
    obtain ⟨faults, rfl, rfl⟩ := step_eq_error_iff.1 failed
    exact drive_of_faults faults lines

end HackComputer.Machine
