import HackComputer.Proofs.Json.Form
import HackComputer.Machine.ConfigFile

/-!
# Lawful forms of the machine's parts

The form of a structure is lawful if the forms of its fields are: its fields are found
under the names that they are written with, which are different.  A case is told by the
name that it is written with.
-/

namespace HackComputer

open Json (fields?_record_bind field?_cons fieldD?_cons)

/-! ## Instructions -/

instance : LawfulJsonForm AluFlags where
  ofJson?_toJson flags := by
    refine (fields?_record_bind (by rfl) (by decide)).trans ?_
    simp [field?_cons]

instance : LawfulJsonForm Dest where
  ofJson?_toJson dest := by
    refine (fields?_record_bind (by rfl) (by decide)).trans ?_
    simp [field?_cons]

instance : LawfulJsonForm Jump where
  ofJson?_toJson jump := by
    refine (fields?_record_bind (by rfl) (by decide)).trans ?_
    simp [field?_cons]

instance : LawfulJsonForm YSource where
  ofJson?_toJson source := by cases source <;> rfl

instance : LawfulJsonForm AddressSource where
  ofJson?_toJson source := by cases source <;> rfl

instance : LawfulJsonForm Compute where
  ofJson?_toJson fields := by
    refine (fields?_record_bind (by rfl) (by decide)).trans ?_
    simp [field?_cons]

instance : LawfulJsonForm Instruction where
  ofJson?_toJson instruction := by
    cases instruction with
    | address literal => exact congrArg (Option.map Instruction.address) (ofJson?_toJson literal)
    | compute fields => exact congrArg (Option.map Instruction.compute) (ofJson?_toJson fields)

instance : LawfulJsonForm ControlSignals where
  ofJson?_toJson signals := by
    refine (fields?_record_bind (by rfl) (by decide)).trans ?_
    simp [field?_cons]

/-! ## Processor -/

instance : LawfulJsonForm CpuOutputs where
  ofJson?_toJson outputs := by
    refine (fields?_record_bind (by rfl) (by decide)).trans ?_
    simp [field?_cons]

instance : LawfulJsonForm Register where
  ofJson?_toJson register := by
    refine (fields?_record_bind (by rfl) (by decide)).trans ?_
    simp [field?_cons]

instance : LawfulJsonForm ProgramCounter where
  ofJson?_toJson pc := by
    refine (fields?_record_bind (by rfl) (by decide)).trans ?_
    simp [field?_cons]

instance : LawfulJsonForm Registers where
  ofJson?_toJson registers := by
    refine (fields?_record_bind (by rfl) (by decide)).trans ?_
    simp [field?_cons]

instance : LawfulJsonForm Cpu where
  ofJson?_toJson cpu := by
    refine (fields?_record_bind (by rfl) (by decide)).trans ?_
    simp [field?_cons]

/-! ## Memory -/

instance : LawfulJsonForm Region where
  ofJson?_toJson region := by
    cases region with
    | ram index => exact congrArg (Option.map Region.ram) (ofJson?_toJson index)
    | screen offset => exact congrArg (Option.map Region.screen) (ofJson?_toJson offset)
    | keyboard => rfl
    | unmapped address => exact congrArg (Option.map Region.unmapped) (ofJson?_toJson address)

theorem SizedRam.ofCells_toList (block : SizedRam) : ofCells block.ram.cells.toList = block := by
  rcases block with ⟨size, ⟨⟨cells, size_eq⟩⟩⟩
  subst size_eq
  rfl

instance : LawfulJsonForm SizedRam where
  ofJson?_toJson block := by
    refine (fields?_record_bind (by rfl) (by decide)).trans ?_
    simp [field?_cons, SizedRam.ofCells_toList]

instance : LawfulJsonForm UnmappedPolicy where
  ofJson?_toJson policy := by cases policy <;> rfl

/-! ## Machine -/

instance : LawfulJsonForm Config where
  ofJson?_toJson config := by
    refine (fields?_record_bind (by rfl) (by decide)).trans ?_
    simp [fieldD?_cons]

instance : LawfulJsonForm StepInfo where
  ofJson?_toJson info := by
    refine (fields?_record_bind (by rfl) (by decide)).trans ?_
    simp [field?_cons]

/-! ## Texts -/

namespace JsonForm

/-- The texts of instructions, control lines, regions, outputs, cycle reports, registers,
processors, configurations and blocks of cells lose nothing, in both layouts, and a
configuration is read from the text of its file. -/
theorem texts_are_faithful :
    (∀ layout, FaithfulText Instruction layout ∧ FaithfulText ControlSignals layout ∧
      FaithfulText Region layout ∧ FaithfulText CpuOutputs layout ∧
      FaithfulText StepInfo layout ∧ FaithfulText Registers layout ∧ FaithfulText Cpu layout ∧
      FaithfulText Config layout ∧ FaithfulText SizedRam layout) ∧
    ∀ config : Config, Config.ofFile config.fileText = .ok config := by
  constructor
  · intro layout
    refine ⟨?_, ?_, ?_, ?_, ?_, ?_, ?_, ?_, ?_⟩
    all_goals exact faithfulText _ layout
  · intro config
    rw [Config.ofFile, Config.fileText, ofText?_text]

end JsonForm

end HackComputer
