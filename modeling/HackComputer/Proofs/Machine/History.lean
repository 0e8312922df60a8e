import HackComputer.Proofs.Machine.Operation

/-!
# Histories

What has happened to a machine along a list of operations: successful cycles, of
single steps and of runs alike, successful loads and restarts, in order.  An
operation that fails, or that only changes an input or a word of memory, happens
without a trace.  `Tracks` is the induction on histories: what each occurrence keeps
true of a history and the machine at its end, every history keeps true.
-/

namespace HackComputer

/-- Something that happens to a machine. -/
inductive Occurrence where
  /-- A cycle of the machine `start`, which succeeds. -/
  | cycle (start : Machine) (info : StepInfo)
  /-- A program takes its place in program memory. -/
  | loaded (program : List Word)
  /-- The program is restarted, outside the clock. -/
  | restarted
  deriving DecidableEq, Repr

namespace Machine

/-- What happens in a step: a cycle if it succeeds. -/
def cycle? (machine : Machine) : Option Occurrence :=
  match machine.step with
  | (.ok info, _) => some (.cycle machine info)
  | (.error _, _) => none

/-- The cycles of the loop of a run. -/
def cyclesFor : Nat → Machine → List Occurrence
  | 0, _ => []
  | count + 1, machine =>
    if machine.state = .halted then []
    else
      match machine.step with
      | (.ok info, after) => .cycle machine info :: cyclesFor count after
      | (.error _, _) => []

/-- What happens to the machine in an operation. -/
def occurrences (machine : Machine) : Operation → List Occurrence
  | .stimulus .step => machine.cycle?.toList
  | .stimulus .reset => [.restarted]
  | .stimulus (.setKeyboard _) | .stimulus (.setReset _) | .stimulus (.poke ..) => []
  | .run budget => cyclesFor (machine.allowance budget) machine
  | .load program =>
    match machine.load program with
    | (.ok (), _) => [.loaded program]
    | (.error _, _) => []

/-- What happens to the machine along a list of operations, the first occurrence
first. -/
def history (machine : Machine) : List Operation → List Occurrence
  | [] => []
  | operation :: rest => machine.occurrences operation ++ (machine.operate operation).2.history rest

theorem history_load_cons {program : List Word} (machine : Machine)
    (fits : program.length ≤ romSize) (rest : List Operation) :
    machine.history (.load program :: rest) =
      .loaded program :: (machine.withProgram program fits).history rest := by
  rw [history, occurrences, operate, load_of_fits machine fits]
  rfl

/-- Each occurrence keeps `Inv` true of the history up to it and the machine after
it, and so does everything that happens without a trace. -/
structure Tracks (Inv : List Occurrence → Machine → Prop) : Prop where
  cycle : ∀ {history machine info after}, Inv history machine →
    machine.step = (.ok info, after) → Inv (history ++ [.cycle machine info]) after
  loaded : ∀ {history machine program after}, Inv history machine →
    machine.load program = (.ok (), after) → Inv (history ++ [.loaded program]) after
  restarted : ∀ {history machine}, Inv history machine →
    Inv (history ++ [.restarted]) machine.reset
  input : ∀ {history machine}, Inv history machine →
    ∀ memory resetLine, Inv history { machine with memory, resetLine }

namespace Tracks

variable {Inv : List Occurrence → Machine → Prop} {past : List Occurrence} {machine : Machine}

theorem runFor (tracks : Tracks Inv) (limit : Nat) (start : Inv past machine) :
    Inv (past ++ cyclesFor limit machine) (runFor limit machine).2 := by
  induction limit generalizing past machine with
  | zero => rwa [cyclesFor, List.append_nil]
  | succ limit inductionHypothesis =>
      rw [cyclesFor, Machine.runFor]
      split
      · rwa [List.append_nil]
      · rcases stepped : machine.step with ⟨error | info, after⟩
        · obtain ⟨-, -, rfl⟩ := step_eq_error_iff.1 stepped
          rwa [List.append_nil]
        · change Inv (past ++ .cycle machine info :: cyclesFor limit after)
            (Machine.runFor limit after).2
          rw [List.append_cons]
          exact inductionHypothesis (tracks.cycle start stepped)

theorem operate (tracks : Tracks Inv) (operation : Operation) (start : Inv past machine) :
    Inv (past ++ machine.occurrences operation) (machine.operate operation).2 := by
  cases operation with
  | run budget =>
      rw [Machine.operate, run_snd]
      exact tracks.runFor _ start
  | load program =>
      rw [occurrences, Machine.operate]
      rcases loaded : machine.load program with ⟨error | ⟨⟩, after⟩
      · obtain ⟨-, -, rfl⟩ := load_eq_error_iff.1 loaded
        rwa [List.append_nil]
      · exact tracks.loaded start loaded
  | stimulus stimulus =>
      cases stimulus with
      | step =>
          rw [occurrences, cycle?, Machine.operate, respond]
          rcases stepped : machine.step with ⟨error | info, after⟩
          · obtain ⟨-, -, rfl⟩ := step_eq_error_iff.1 stepped
            rwa [Option.toList_none, List.append_nil]
          · exact tracks.cycle start stepped
      | reset => exact tracks.restarted start
      | setKeyboard key =>
          rw [occurrences, List.append_nil]
          exact tracks.input start _ machine.resetLine
      | setReset asserted =>
          rw [occurrences, List.append_nil]
          exact tracks.input start machine.memory asserted
      | poke address value =>
          rw [occurrences, List.append_nil]
          exact tracks.input start _ machine.resetLine

theorem after (tracks : Tracks Inv) (operations : List Operation) (start : Inv past machine) :
    Inv (past ++ machine.history operations) (machine.after operations) := by
  induction operations generalizing past machine with
  | nil => rwa [history, List.append_nil]
  | cons operation rest inductionHypothesis =>
      rw [history, ← List.append_assoc]
      exact inductionHypothesis (tracks.operate operation start)

end Tracks

end Machine

end HackComputer
