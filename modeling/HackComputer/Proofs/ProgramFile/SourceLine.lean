import HackComputer.Proofs.ProgramFile.Reading

/-!
# The lines of instructions

Reading keeps the line of every instruction, and that line is one of the file on
which the instruction stands.
-/

namespace HackComputer.ProgramFile

/-- The instruction stands on the line with this number of a file: its binary
text is the first token there. -/
def StandsOn (bytes : List UInt8) (number : Nat) (word : Word) : Prop :=
  ∃ before chars behind, FallsInto bytes (before ++ Text.utf8 chars :: behind) ∧
    number = before.length + 1 ∧ Text.HasFirstToken chars word.binaryDigits

theorem standsOn_of_reading {bytes : List UInt8} {index : Nat} {word : Word}
    (here : ((lines bytes).map LineReading.of)[index]? = some (.instruction word)) :
    StandsOn bytes (index + 1) word := by
  rw [List.getElem?_map, Option.map_eq_some_iff] at here
  obtain ⟨line, here, reading_eq⟩ := here
  obtain ⟨chars, rfl, first⟩ := reads_instruction_iff.1 (reads_iff.2 reading_eq.symm)
  obtain ⟨inside, line_eq⟩ := List.getElem?_eq_some_iff.1 here
  refine ⟨(lines bytes).take index, chars, (lines bytes).drop (index + 1), ?_, ?_, first⟩
  · rw [fallsInto_iff, ← line_eq, ← List.drop_eq_getElem_cons inside, List.take_append_drop]
  · rw [List.length_take_of_le inside.le]

/-- Each instruction of an accepted file has a line, and stands on it. -/
theorem standsOn_sourceLine {bytes : List UInt8} {file : ProgramFile}
    (accepted : ofBytes bytes = .ok file) {address word : Word}
    (found : file.instructions[address.toNat]? = some word) :
    ∃ number, file.sourceLine? address = some number ∧ StandsOn bytes number word := by
  obtain ⟨rfl, -⟩ := eq_ofReadings_of_ofBytes accepted
  rw [instructions, List.getElem?_map, Option.map_eq_some_iff] at found
  obtain ⟨entry, found, rfl⟩ := found
  obtain ⟨index, here, line_eq⟩ := mem_numbered_iff.1 (List.mem_of_getElem? found)
  refine ⟨entry.line, ?_, ?_⟩
  · rw [sourceLine?, ← Array.getElem?_toList, found, Option.map_some]
  · rw [line_eq, Nat.add_comm]
    exact standsOn_of_reading here

end HackComputer.ProgramFile
