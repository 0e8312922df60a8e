import HackComputer.Machine

/-!
# Inspection texts

One-line texts that show a component with all its parts, for logs and
debugging: `Name { part: text, … }` for a structure, `Name(text)` for a case that
carries something.  Blocks of storage show a summary instead of their cells.
-/

namespace HackComputer

/-- A type whose values can be shown in an inspection text. -/
class Inspect (α : Type) where
  inspect : α → String

export Inspect (inspect)

namespace Inspect

/-- The text of a structure, from the texts of its parts. -/
def structureText (name : String) (parts : List (String × String)) : String :=
  name ++ " \x7b " ++ ", ".intercalate (parts.map fun part => part.1 ++ ": " ++ part.2) ++ " \x7d"

/-- The text of a case that carries something. -/
def caseText (name contents : String) : String :=
  name ++ "(" ++ contents ++ ")"

/-- The text of an unsigned number. -/
def number {width : Nat} (value : BitVec width) : String :=
  toString value.toNat

/-- The text of a data word: its hexadecimal digits and its signed value. -/
def word (value : Word) : String :=
  caseText "Word16" (value.hex ++ " = " ++ toString value.toInt)

instance : Inspect Bool where
  inspect value := if value then "true" else "false"

instance {α : Type} [Inspect α] : Inspect (Option α) where
  inspect
    | none => "None"
    | some value => caseText "Some" (inspect value)

/-! ## Instructions -/

instance : Inspect AluFlags where
  inspect flags := structureText "AluFlags"
    [("zx", inspect flags.zx), ("nx", inspect flags.nx), ("zy", inspect flags.zy),
      ("ny", inspect flags.ny), ("f", inspect flags.f), ("no", inspect flags.no)]

instance : Inspect Dest where
  inspect dest := structureText "Dest"
    [("a", inspect dest.a), ("d", inspect dest.d), ("m", inspect dest.m)]

instance : Inspect Jump where
  inspect jump := structureText "Jump"
    [("lt", inspect jump.lt), ("eq", inspect jump.eq), ("gt", inspect jump.gt)]

instance : Inspect YSource where
  inspect
    | .register => "Register"
    | .memory => "Memory"

instance : Inspect AddressSource where
  inspect
    | .literal => "Literal"
    | .computed => "Computed"

instance : Inspect Compute where
  inspect fields := structureText "Compute"
    [("y_source", inspect fields.ySource), ("alu", inspect fields.alu),
      ("dest", inspect fields.dest), ("jump", inspect fields.jump)]

instance : Inspect Instruction where
  inspect
    | .address literal => caseText "Address" (number literal)
    | .compute fields => caseText "Compute" (inspect fields)

instance : Inspect ControlSignals where
  inspect signals := structureText "ControlSignals"
    [("zx", inspect signals.zx), ("nx", inspect signals.nx),
      ("zy", inspect signals.zy), ("ny", inspect signals.ny),
      ("f", inspect signals.f), ("no", inspect signals.no),
      ("dest_a", inspect signals.destA), ("dest_d", inspect signals.destD),
      ("dest_m", inspect signals.destM), ("jump_lt", inspect signals.jumpLt),
      ("jump_eq", inspect signals.jumpEq), ("jump_gt", inspect signals.jumpGt),
      ("y_source", inspect signals.ySource),
      ("address_source", inspect signals.addressSource)]

/-! ## Processor -/

instance : Inspect CpuOutputs where
  inspect outputs := structureText "CpuOutputs"
    [("out_m", word outputs.outM), ("write_m", inspect outputs.writeM),
      ("address_m", number outputs.addressM), ("pc", number outputs.pc)]

instance : Inspect Register where
  inspect register := structureText "Register" [("value", word register.value)]

instance : Inspect ProgramCounter where
  inspect pc := structureText "ProgramCounter" [("value", number pc.value)]

instance : Inspect Registers where
  inspect registers := structureText "Registers"
    [("a", inspect registers.a), ("d", inspect registers.d), ("pc", inspect registers.pc)]

instance : Inspect Cpu where
  inspect cpu := structureText "Cpu" [("regs", inspect cpu.registers)]

/-! ## Memory -/

instance : Inspect Region where
  inspect
    | .ram index => caseText "Ram" (number index)
    | .screen offset => caseText "Screen" (number offset)
    | .keyboard => "Keyboard"
    | .unmapped address => caseText "Unmapped" (number address)

instance {size : Nat} : Inspect (Ram size) where
  inspect ram := structureText "Ram"
    [("non_zero_cells", toString ram.nonzero.length), ("total_cells", toString size)]

instance : Inspect SizedRam where
  inspect block := inspect block.ram

instance : Inspect Screen where
  inspect screen := structureText "Screen" [("words", inspect screen.words)]

instance : Inspect Rom where
  inspect rom := structureText "Rom"
    [("program_len", toString rom.loaded), ("capacity", toString romSize)]

instance : Inspect UnmappedPolicy where
  inspect
    | .ignore => "Ignore"
    | .fault => "Fault"

instance : Inspect Memory where
  inspect memory := structureText "MemoryController"
    [("ram", inspect memory.ram), ("screen", inspect memory.screen),
      ("keyboard", word memory.keyboard), ("unmapped", inspect memory.unmapped)]

/-! ## Machine -/

instance : Inspect Config where
  inspect config := structureText "MachineConfig"
    [("unmapped", inspect config.unmapped), ("halt_detection", inspect config.haltDetection)]

instance : Inspect RunState where
  inspect
    | .running => "Running"
    | .halted => "Halted"

instance : Inspect StepInfo where
  inspect info := structureText "StepInfo"
    [("pc", number info.pc), ("word", word info.word),
      ("instruction", inspect info.instruction), ("outputs", inspect info.outputs)]

instance : Inspect Machine where
  inspect machine := structureText "Machine"
    [("cpu", inspect machine.cpu), ("rom", inspect machine.rom), ("mem", inspect machine.memory),
      ("state", inspect machine.state), ("cycles", toString machine.cycles),
      ("reset_line", inspect machine.resetLine), ("last_step", inspect machine.lastStep),
      ("config", inspect machine.config)]

end Inspect

end HackComputer
