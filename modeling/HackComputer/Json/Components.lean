import HackComputer.Json.Form
import HackComputer.Machine

/-!
# JSON forms of the machine's parts

Instructions, control lines, processor state, cycle reports, address ranges,
storage and the configuration.
-/

namespace HackComputer

open Json (record ofString field? fieldD?)

/-! ## Instructions -/

instance : JsonForm AluFlags where
  toJson flags := record
    [("zx", toJson flags.zx), ("nx", toJson flags.nx), ("zy", toJson flags.zy),
      ("ny", toJson flags.ny), ("f", toJson flags.f), ("no", toJson flags.no)]
  ofJson? json := do
    let fields ← json.fields? ["zx", "nx", "zy", "ny", "f", "no"]
    return {
      zx := ← field? fields "zx"
      nx := ← field? fields "nx"
      zy := ← field? fields "zy"
      ny := ← field? fields "ny"
      f := ← field? fields "f"
      no := ← field? fields "no" }

instance : JsonForm Dest where
  toJson dest := record [("a", toJson dest.a), ("d", toJson dest.d), ("m", toJson dest.m)]
  ofJson? json := do
    let fields ← json.fields? ["a", "d", "m"]
    return { a := ← field? fields "a", d := ← field? fields "d", m := ← field? fields "m" }

instance : JsonForm Jump where
  toJson jump := record [("lt", toJson jump.lt), ("eq", toJson jump.eq), ("gt", toJson jump.gt)]
  ofJson? json := do
    let fields ← json.fields? ["lt", "eq", "gt"]
    return { lt := ← field? fields "lt", eq := ← field? fields "eq", gt := ← field? fields "gt" }

instance : JsonForm YSource where
  toJson
    | .register => ofString "Register"
    | .memory => ofString "Memory"
  ofJson? json :=
    match json.unitCase? with
    | some "Register" => some .register
    | some "Memory" => some .memory
    | _ => none

instance : JsonForm AddressSource where
  toJson
    | .literal => ofString "Literal"
    | .computed => ofString "Computed"
  ofJson? json :=
    match json.unitCase? with
    | some "Literal" => some .literal
    | some "Computed" => some .computed
    | _ => none

instance : JsonForm Compute where
  toJson fields := record
    [("y_source", toJson fields.ySource), ("alu", toJson fields.alu),
      ("dest", toJson fields.dest), ("jump", toJson fields.jump)]
  ofJson? json := do
    let fields ← json.fields? ["y_source", "alu", "dest", "jump"]
    return {
      ySource := ← field? fields "y_source"
      alu := ← field? fields "alu"
      dest := ← field? fields "dest"
      jump := ← field? fields "jump" }

instance : JsonForm Instruction where
  toJson
    | .address literal => .ofCase "Address" literal
    | .compute fields => .ofCase "Compute" fields
  ofJson? json :=
    match json.case? with
    | some ("Address", some literal) => (ofJson? literal).map .address
    | some ("Compute", some fields) => (ofJson? fields).map .compute
    | _ => none

/-- The control lines are written one by one. -/
instance : JsonForm ControlSignals where
  toJson signals := record
    [("zx", toJson signals.zx), ("nx", toJson signals.nx),
      ("zy", toJson signals.zy), ("ny", toJson signals.ny),
      ("f", toJson signals.f), ("no", toJson signals.no),
      ("dest_a", toJson signals.destA), ("dest_d", toJson signals.destD),
      ("dest_m", toJson signals.destM), ("jump_lt", toJson signals.jumpLt),
      ("jump_eq", toJson signals.jumpEq), ("jump_gt", toJson signals.jumpGt),
      ("y_source", toJson signals.ySource), ("address_source", toJson signals.addressSource)]
  ofJson? json := do
    let fields ← json.fields?
      ["zx", "nx", "zy", "ny", "f", "no", "dest_a", "dest_d", "dest_m", "jump_lt", "jump_eq",
        "jump_gt", "y_source", "address_source"]
    return {
      zx := ← field? fields "zx"
      nx := ← field? fields "nx"
      zy := ← field? fields "zy"
      ny := ← field? fields "ny"
      f := ← field? fields "f"
      no := ← field? fields "no"
      destA := ← field? fields "dest_a"
      destD := ← field? fields "dest_d"
      destM := ← field? fields "dest_m"
      jumpLt := ← field? fields "jump_lt"
      jumpEq := ← field? fields "jump_eq"
      jumpGt := ← field? fields "jump_gt"
      ySource := ← field? fields "y_source"
      addressSource := ← field? fields "address_source" }

/-! ## Processor -/

instance : JsonForm CpuOutputs where
  toJson outputs := record
    [("out_m", toJson outputs.outM), ("write_m", toJson outputs.writeM),
      ("address_m", toJson outputs.addressM), ("pc", toJson outputs.pc)]
  ofJson? json := do
    let fields ← json.fields? ["out_m", "write_m", "address_m", "pc"]
    return {
      outM := ← field? fields "out_m"
      writeM := ← field? fields "write_m"
      addressM := ← field? fields "address_m"
      pc := ← field? fields "pc" }

instance : JsonForm Register where
  toJson register := record [("value", toJson register.value)]
  ofJson? json := do
    let fields ← json.fields? ["value"]
    return { value := ← field? fields "value" }

/-- All sixteen bits of a stored counter are read. -/
instance : JsonForm ProgramCounter where
  toJson pc := record [("value", toJson pc.value)]
  ofJson? json := do
    let fields ← json.fields? ["value"]
    return { value := ← field? fields "value" }

instance : JsonForm Registers where
  toJson registers := record
    [("a", toJson registers.a), ("d", toJson registers.d), ("pc", toJson registers.pc)]
  ofJson? json := do
    let fields ← json.fields? ["a", "d", "pc"]
    return { a := ← field? fields "a", d := ← field? fields "d", pc := ← field? fields "pc" }

instance : JsonForm Cpu where
  toJson cpu := record [("regs", toJson cpu.registers)]
  ofJson? json := do
    let fields ← json.fields? ["regs"]
    return { registers := ← field? fields "regs" }

/-! ## Memory -/

instance : JsonForm Region where
  toJson
    | .ram index => .ofCase "Ram" index
    | .screen offset => .ofCase "Screen" offset
    | .keyboard => ofString "Keyboard"
    | .unmapped address => .ofCase "Unmapped" address
  ofJson? json :=
    match json.case? with
    | some ("Ram", some index) => (ofJson? index).map .ram
    | some ("Screen", some offset) => (ofJson? offset).map .screen
    | some ("Keyboard", contents) => if contents.all Json.isNull then some .keyboard else none
    | some ("Unmapped", some address) => (ofJson? address).map .unmapped
    | _ => none

instance : JsonForm SizedRam where
  toJson block := record [("cells", toJson block.ram.cells.toList)]
  ofJson? json := do
    let fields ← json.fields? ["cells"]
    return .ofCells (← field? fields "cells")

/-- A block of a fixed size is read only from as many cells. -/
instance {size : Nat} : JsonForm (Ram size) where
  toJson ram := toJson (SizedRam.mk size ram)
  ofJson? json := do
    let block : SizedRam ← ofJson? json
    if h : block.size = size then some (h ▸ block.ram) else none

instance : JsonForm UnmappedPolicy where
  toJson
    | .ignore => ofString "ignore"
    | .fault => ofString "fault"
  ofJson? json :=
    match json.unitCase? with
    | some "ignore" => some .ignore
    | some "fault" => some .fault
    | _ => none

/-! ## Machine -/

/-- A field that is absent has the value of the default configuration. -/
instance : JsonForm Config where
  toJson config := record
    [("unmapped", toJson config.unmapped), ("halt_detection", toJson config.haltDetection)]
  ofJson? json := do
    let fields ← json.fields? ["unmapped", "halt_detection"]
    let standard : Config := {}
    return {
      unmapped := ← fieldD? fields "unmapped" standard.unmapped
      haltDetection := ← fieldD? fields "halt_detection" standard.haltDetection }

instance : JsonForm RunState where
  toJson
    | .running => ofString "Running"
    | .halted => ofString "Halted"
  ofJson? json :=
    match json.unitCase? with
    | some "Running" => some .running
    | some "Halted" => some .halted
    | _ => none

instance : JsonForm StepInfo where
  toJson info := record
    [("pc", toJson info.pc), ("word", toJson info.word),
      ("instruction", toJson info.instruction), ("outputs", toJson info.outputs)]
  ofJson? json := do
    let fields ← json.fields? ["pc", "word", "instruction", "outputs"]
    return {
      pc := ← field? fields "pc"
      word := ← field? fields "word"
      instruction := ← field? fields "instruction"
      outputs := ← field? fields "outputs" }

end HackComputer
