import HackComputer.Proofs.Machine.Bookkeeping
import HackComputer.Proofs.Machine.Lockstep

/-!
# The keyboard under a program

The key that is held down reaches a program only through reads of the keyboard's
address: machines that differ in the key go through the same cycles as long as no
cycle takes its operand from there, whatever else it does with the address.  In the
other direction there is no way: no cycle changes the key.
-/

namespace HackComputer

theorem Memory.store_setKeyboard (memory : Memory) (address value key : Word) :
    (memory.setKeyboard key).store address value =
      (memory.store address value).setKeyboard key := by
  simp only [store, setKeyboard]
  split <;> rfl

/-- Does the operation set the key? -/
def Operation.setsKey : Operation → Bool
  | .stimulus (.setKeyboard _) => true
  | .stimulus _ | .run _ | .load _ => false

namespace Machine

/-- Does the next cycle take its operand from the keyboard? -/
def ReadsKeyboard (machine : Machine) : Prop :=
  machine.instruction.readsMemory = true ∧ machine.cpu.addressM.toNat = keyboardAddress

instance : DecidablePred ReadsKeyboard := fun _ =>
  inferInstanceAs (Decidable (_ ∧ _))

/-- The machines are the same but for the key that is held down. -/
def SameButKey (first second : Machine) : Prop :=
  ∃ key, second = first.setKeyboard key

section Cycle

variable {machine : Machine} (unread : ¬machine.ReadsKeyboard) (key : Word)
include unread

/-- A cycle that does not read the keyboard has the same operand under every key. -/
theorem inM_setKeyboard : (machine.setKeyboard key).inM = machine.inM := by
  change (if machine.instruction.readsMemory then
    (machine.memory.setKeyboard key).word machine.cpu.addressM else 0) = machine.inM
  rw [inM, Memory.word_setKeyboard, addressM_low15]
  by_cases reads : machine.instruction.readsMemory = true
  · rw [if_neg fun found => unread ⟨reads, found⟩]
  · rw [if_neg reads, if_neg reads]

theorem evaluation_setKeyboard : (machine.setKeyboard key).evaluation = machine.evaluation :=
  congrArg (machine.cpu.evaluate (machine.rom.fetch machine.cpu.pc)) (inM_setKeyboard unread key)

theorem cycleInfo_setKeyboard : (machine.setKeyboard key).cycleInfo = machine.cycleInfo := by
  rw [cycleInfo, evaluation_setKeyboard unread]
  rfl

theorem next_setKeyboard : (machine.setKeyboard key).next = machine.next.setKeyboard key := by
  rw [next, cycleInfo_setKeyboard unread, evaluation_setKeyboard unread]
  simp only [setKeyboard, Memory.store_setKeyboard, ← apply_ite (Memory.setKeyboard · key)]
  rfl

end Cycle

theorem load_setKeyboard (machine : Machine) (program : List Word) (key : Word) :
    (machine.setKeyboard key).load program =
      ((machine.load program).1, (machine.load program).2.setKeyboard key) := by
  simp only [load]
  split <;> rfl

theorem poke_setKeyboard (machine : Machine) (address value key : Word) :
    (machine.setKeyboard key).poke address value =
      ((machine.poke address value).1, (machine.poke address value).2.setKeyboard key) := by
  rw [poke_eq, poke_eq]
  split
  · simp only [setKeyboard, Memory.store_setKeyboard]
  · rfl

theorem lockstep_sameButKey :
    Lockstep SameButKey Eq (fun machine => ¬machine.ReadsKeyboard) where
  state_eq := by
    rintro first _ ⟨key, rfl⟩
    rfl
  cycles_eq := by
    rintro first _ ⟨key, rfl⟩
    rfl
  faults_iff := by
    rintro first _ ⟨key, rfl⟩
    rfl
  fault_eq := by
    rintro first _ ⟨key, rfl⟩
    rfl
  cycleInfo := by
    rintro first _ ⟨key, rfl⟩ unread
    exact (cycleInfo_setKeyboard unread key).symm
  next := by
    rintro first _ ⟨key, rfl⟩ unread
    exact ⟨key, next_setKeyboard unread key⟩
  unclocked := by
    rintro first _ operation ⟨key, rfl⟩ unclocked
    cases operation with
    | run budget => contradiction
    | load program =>
        rw [operate, operate, load_setKeyboard]
        exact ⟨rfl, key, rfl⟩
    | stimulus stimulus =>
        cases stimulus with
        | step => contradiction
        | setKeyboard key' => exact ⟨rfl, key', rfl⟩
        | setReset asserted => exact ⟨rfl, key, rfl⟩
        | poke address value =>
            rw [operate, operate, respond, respond, poke_setKeyboard]
            exact ⟨rfl, key, rfl⟩
        | reset => exact ⟨rfl, key, rfl⟩

/-! ## The key under the clock -/

theorem keyboard_step (machine : Machine) :
    machine.step.2.memory.keyboard = machine.memory.keyboard := by
  by_cases faults : machine.Faults
  · rw [step_of_faults machine faults]
  · rw [step_of_not_faults machine faults, next]
    dsimp only
    split
    · exact Memory.keyboard_store _ _ _
    · rfl

/-- Only the keyboard's own operation changes the key. -/
theorem keyboard_operate (machine : Machine) {operation : Operation}
    (no_key : operation.setsKey = false) :
    (machine.operate operation).2.memory.keyboard = machine.memory.keyboard := by
  cases operation with
  | run budget =>
      exact run_preserves (fun after => after.memory.keyboard = machine.memory.keyboard)
        (fun before kept => (keyboard_step before).trans kept) budget rfl
  | load program =>
      rw [operate]
      by_cases fits : program.length ≤ romSize
      · rw [load_of_fits machine fits]
        rfl
      · rw [load_of_not_fits machine fits]
  | stimulus stimulus =>
      cases stimulus with
      | step => exact keyboard_step machine
      | setKeyboard key => contradiction
      | setReset asserted => rfl
      | poke address value =>
          rw [operate, respond, poke_eq]
          split
          · exact Memory.keyboard_store _ _ _
          · rfl
      | reset => rfl

/-- Machines that differ in the key at most give the same outcomes and stay the same
but for the key, along all operations none of whose cycles takes its operand from the
keyboard.  And the key stays as it is until it is set from outside. -/
theorem keyboard_seen_only_through_reads (machine : Machine) (operations : List Operation) :
    (∀ other : Machine, machine.SameButKey other →
      (∀ occurrence ∈ machine.history operations,
        occurrence.StartsQuiet fun start => ¬start.ReadsKeyboard) →
      List.Forall₂ (fun here there => here.1 = there.1 ∧ here.2.SameButKey there.2)
        (machine.trace operations) (other.trace operations)) ∧
    ((∀ operation ∈ operations, operation.setsKey = false) →
      (machine.after operations).memory.keyboard = machine.memory.keyboard) := by
  constructor
  · intro other same unread
    apply (lockstep_sameButKey.trace same unread).imp
    rintro here there ⟨outcome, same_after⟩
    exact ⟨outcome.eq, same_after⟩
  · intro no_key
    refine after_preserves (fun after => after.memory.keyboard = machine.memory.keyboard) ?_ rfl
    intro before kept operation member
    exact (keyboard_operate before (no_key operation member)).trans kept

/-- A machine with the program `@24576, M=1, D=A;JLT, @3, 0;JMP`, which writes to the
keyboard and has a jump to its address. -/
def addressing : Machine :=
  (ofConfig {}).withProgram [0x6000, 0xEFC8, 0xEC14, 0x0003, 0xEA87] (by decide)

/-- The key is not seen by a program that does everything with the address of the
keyboard but read it: the machine comes to its idle loop under any key. -/
theorem key_not_seen_by_addressing :
    let operations : List Operation := [.stimulus .step, .run 10]
    (∀ occurrence ∈ addressing.history operations,
        occurrence.StartsQuiet fun start => ¬start.ReadsKeyboard) ∧
      List.Forall₂ (fun here there => here.1 = there.1 ∧ here.2.SameButKey there.2)
        (addressing.trace operations) ((addressing.setKeyboard 65).trace operations) ∧
      (addressing.after operations).state = .halted ∧
      (addressing.after operations).memory.keyboard = 0 := by
  intro operations
  have unread : ∀ occurrence ∈ addressing.history operations,
      occurrence.StartsQuiet fun start => ¬start.ReadsKeyboard := by
    decide +kernel
  obtain ⟨same, kept⟩ := keyboard_seen_only_through_reads addressing operations
  have halts : (addressing.after operations).state = .halted := by
    change (addressing.step.2.run 10).2.state = .halted
    rw [run_snd]
    decide +kernel
  exact ⟨unread, same _ ⟨65, rfl⟩ unread, halts, kept (by decide)⟩

end Machine

end HackComputer
