import HackComputer.Machine
import Mathlib.Data.List.GetD

/-!
# Loaded programs

What `load` puts into program memory: the program, and zeros after it.
-/

namespace HackComputer

namespace Rom

variable {program : List Word} (fits : program.length ≤ romSize)

/-- Program memory that holds a program and zeros after it. -/
def holding (program : List Word) (fits : program.length ≤ romSize) : Rom where
  words :=
    ⟨(program ++ List.replicate (romSize - program.length) 0).toArray, by
      rw [List.size_toArray, List.length_append, List.length_replicate]
      exact Nat.add_sub_cancel' fits⟩
  loaded := program.length

theorem ofProgram_of_fits : ofProgram program = .ok (holding program fits) := by
  rw [ofProgram, dif_pos fits]
  simp only [holding, List.append_toArray, ← List.toArray_replicate]

/-- Clear program memory holds the empty program. -/
theorem zero_eq_holding : zero = holding [] (Nat.zero_le romSize) := by
  have words_eq : zero.words = (holding [] (Nat.zero_le romSize)).words := by
    rw [← Vector.toList_inj, zero, Vector.toList_replicate]
    rfl
  exact congrArg (Rom.mk · 0) words_eq

/-- The program counter finds the words of the program, and zeros after it. -/
theorem fetch_holding (pc : Word) :
    (holding program fits).fetch pc = program.getD pc.low15.toNat 0 := by
  have bound : pc.low15.toNat <
      (program ++ List.replicate (romSize - program.length) (0 : Word)).length := by
    rw [List.length_append, List.length_replicate, Nat.add_sub_cancel' fits]
    exact pc.toNat_low15_lt
  have fetched : (holding program fits).fetch pc =
      (program ++ List.replicate (romSize - program.length) (0 : Word))[pc.low15.toNat] :=
    rfl
  rw [fetched, List.getElem_append]
  split
  · rename_i inside
    exact (List.getD_eq_getElem program 0 inside).symm
  · rename_i outside
    rw [List.getElem_replicate]
    exact (List.getD_eq_default program 0 (Nat.le_of_not_lt outside)).symm

end Rom

namespace Machine

variable (machine : Machine) {program : List Word} (fits : program.length ≤ romSize)

/-- The machine with a program in place of its own, about to start it. -/
def withProgram (program : List Word) (fits : program.length ≤ romSize) : Machine :=
  { machine with
    cpu := machine.cpu.setPc 0
    rom := .holding program fits
    state := .running
    cycles := 0
    lastStep := none }

theorem load_of_fits : machine.load program = (.ok (), machine.withProgram program fits) := by
  rw [load, Rom.ofProgram_of_fits fits]
  rfl

/-- A program that does not fit changes nothing. -/
theorem load_of_not_fits (large : ¬program.length ≤ romSize) :
    machine.load program = (.error (.memory (.programTooLarge program.length)), machine) := by
  rw [load, Rom.ofProgram, dif_neg large]

variable {machine} {after : Machine}

theorem load_eq_ok_iff :
    machine.load program = (.ok (), after) ↔
      ∃ fits : program.length ≤ romSize, after = machine.withProgram program fits := by
  by_cases fits : program.length ≤ romSize
  · simp [machine.load_of_fits fits, fits, eq_comm]
  · simp [machine.load_of_not_fits fits, fits]

theorem load_eq_error_iff {error : MachineError} :
    machine.load program = (.error error, after) ↔
      ¬program.length ≤ romSize ∧ error = .memory (.programTooLarge program.length) ∧
        after = machine := by
  by_cases fits : program.length ≤ romSize
  · simp [machine.load_of_fits fits, fits]
  · simp [machine.load_of_not_fits fits, fits, eq_comm]

end Machine

end HackComputer
