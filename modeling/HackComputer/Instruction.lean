import HackComputer.Alu

/-!
# Instructions

Every word is an instruction.  An address instruction loads a literal into
register A; a compute instruction evaluates the arithmetic/logic unit, stores
its result and may jump.  `ControlSignals` is the flat view that the data path
consumes.
-/

namespace HackComputer

/-- Where the second operand of the arithmetic/logic unit comes from. -/
inductive YSource where
  /-- Register A. -/
  | register
  /-- The memory word addressed by register A. -/
  | memory
  deriving DecidableEq, Repr

/-- Where the next value of register A comes from. -/
inductive AddressSource where
  /-- The literal of an address instruction. -/
  | literal
  /-- The result of a compute instruction. -/
  | computed
  deriving DecidableEq, Repr

/-- The places that a compute instruction stores its result in. -/
structure Dest where
  a : Bool
  d : Bool
  m : Bool
  deriving DecidableEq, Repr

namespace Dest

/-- The destinations from their field, A being the most significant bit. -/
def ofField (field : BitVec 3) : Dest where
  a := field.getLsbD 2
  d := field.getLsbD 1
  m := field.getLsbD 0

/-- The three-bit field of the destinations. -/
def toField (dest : Dest) : BitVec 3 :=
  BitVec.ofBool dest.a ++ BitVec.ofBool dest.d ++ BitVec.ofBool dest.m

/-- Is the result stored nowhere? -/
def isEmpty (dest : Dest) : Bool :=
  !(dest.a || dest.d || dest.m)

theorem ofField_toField (dest : Dest) : ofField dest.toField = dest := by
  rcases dest with ⟨a, d, m⟩
  cases a <;> cases d <;> cases m <;> rfl

end Dest

/-- The signs of the result on which a compute instruction jumps. -/
structure Jump where
  lt : Bool
  eq : Bool
  gt : Bool
  deriving DecidableEq, Repr

namespace Jump

/-- The condition from its field, `lt` being the most significant bit. -/
def ofField (field : BitVec 3) : Jump where
  lt := field.getLsbD 2
  eq := field.getLsbD 1
  gt := field.getLsbD 0

/-- The three-bit field of the condition. -/
def toField (jump : Jump) : BitVec 3 :=
  BitVec.ofBool jump.lt ++ BitVec.ofBool jump.eq ++ BitVec.ofBool jump.gt

/-- Is the jump taken for a result with these status bits? -/
def isTaken (jump : Jump) (zr ng : Bool) : Bool :=
  (jump.lt && ng) || (jump.eq && zr) || (jump.gt && !ng && !zr)

theorem ofField_toField (jump : Jump) : ofField jump.toField = jump := by
  rcases jump with ⟨lt, eq, gt⟩
  cases lt <;> cases eq <;> cases gt <;> rfl

end Jump

/-- The fields of a compute instruction. -/
structure Compute where
  ySource : YSource
  alu : AluFlags
  dest : Dest
  jump : Jump
  deriving DecidableEq, Repr

/-- A decoded instruction. -/
inductive Instruction where
  /-- Load a literal into register A. -/
  | address (literal : Word)
  /-- Evaluate, store and jump. -/
  | compute (fields : Compute)
  deriving DecidableEq, Repr

/-- The control lines that one instruction drives, one by one. -/
structure ControlSignals where
  zx : Bool
  nx : Bool
  zy : Bool
  ny : Bool
  f : Bool
  no : Bool
  destA : Bool
  destD : Bool
  destM : Bool
  jumpLt : Bool
  jumpEq : Bool
  jumpGt : Bool
  ySource : YSource
  addressSource : AddressSource
  deriving DecidableEq, Repr

namespace ControlSignals

/-- The setting of the arithmetic/logic unit. -/
def alu (signals : ControlSignals) : AluFlags where
  zx := signals.zx
  nx := signals.nx
  zy := signals.zy
  ny := signals.ny
  f := signals.f
  no := signals.no

/-- The jump condition. -/
def jump (signals : ControlSignals) : Jump where
  lt := signals.jumpLt
  eq := signals.jumpEq
  gt := signals.jumpGt

/-- Does register A load at the end of the cycle? -/
def loadsA (signals : ControlSignals) : Bool :=
  signals.addressSource == .literal || signals.destA

end ControlSignals

namespace Instruction

/-- Is this an address instruction? -/
def isAddress : Instruction → Bool
  | .address _ => true
  | .compute _ => false

/-- The control lines of an instruction.  An address instruction clears all
unit, destination and jump lines. -/
def signals : Instruction → ControlSignals
  | .address _ =>
    { zx := false
      nx := false
      zy := false
      ny := false
      f := false
      no := false
      destA := false
      destD := false
      destM := false
      jumpLt := false
      jumpEq := false
      jumpGt := false
      ySource := .register
      addressSource := .literal }
  | .compute fields =>
    { zx := fields.alu.zx
      nx := fields.alu.nx
      zy := fields.alu.zy
      ny := fields.alu.ny
      f := fields.alu.f
      no := fields.alu.no
      destA := fields.dest.a
      destD := fields.dest.d
      destM := fields.dest.m
      jumpLt := fields.jump.lt
      jumpEq := fields.jump.eq
      jumpGt := fields.jump.gt
      ySource := fields.ySource
      addressSource := .computed }

@[simp]
theorem ySource_signals_compute (fields : Compute) :
    (compute fields).signals.ySource = fields.ySource :=
  rfl

@[simp]
theorem alu_signals_compute (fields : Compute) : (compute fields).signals.alu = fields.alu :=
  rfl

/-- Does the instruction take an operand from memory? -/
def readsMemory : Instruction → Bool
  | .address _ => false
  | .compute fields => fields.ySource == .memory

end Instruction

end HackComputer
