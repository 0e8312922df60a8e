import HackComputer.Word

/-!
# The arithmetic/logic unit

A combinational function of two words and six control bits.  Every one of the
64 settings is legal; eighteen of them compute the functions that the
instruction set names, listed here as `AluFunction`.
-/

namespace HackComputer

/-- The six control bits, in instruction order. -/
structure AluFlags where
  /-- Replace the first operand by zero. -/
  zx : Bool
  /-- Then complement the first operand. -/
  nx : Bool
  /-- Replace the second operand by zero. -/
  zy : Bool
  /-- Then complement the second operand. -/
  ny : Bool
  /-- Add when set, conjoin bit by bit when clear. -/
  f : Bool
  /-- Complement the result. -/
  no : Bool
  deriving DecidableEq, Repr

namespace AluFlags

/-- The flags laid out `zx nx zy ny f no`, with `zx` the most significant. -/
def ofField (field : BitVec 6) : AluFlags where
  zx := field.getLsbD 5
  nx := field.getLsbD 4
  zy := field.getLsbD 3
  ny := field.getLsbD 2
  f := field.getLsbD 1
  no := field.getLsbD 0

/-- The six-bit field of the flags. -/
def toField (flags : AluFlags) : BitVec 6 :=
  BitVec.ofBool flags.zx ++ BitVec.ofBool flags.nx ++ BitVec.ofBool flags.zy ++
    BitVec.ofBool flags.ny ++ BitVec.ofBool flags.f ++ BitVec.ofBool flags.no

/-- All flags clear, as an address instruction drives them. -/
def clear : AluFlags :=
  ofField 0

theorem ofField_toField (flags : AluFlags) : ofField flags.toField = flags := by
  rcases flags with ⟨zx, nx, zy, ny, f, no⟩
  cases zx <;> cases nx <;> cases zy <;> cases ny <;> cases f <;> cases no <;> rfl

end AluFlags

/-- A result and its two status bits. -/
structure AluOutput where
  out : Word
  /-- The result is zero. -/
  zr : Bool
  /-- The result is negative. -/
  ng : Bool
  deriving DecidableEq, Repr

namespace Alu

/-- One operand after its zero and complement stages. -/
def operand (zero complement : Bool) (word : Word) : Word :=
  let word := if zero then 0 else word
  if complement then ~~~word else word

/-- The result of the unit. -/
def result (x y : Word) (flags : AluFlags) : Word :=
  let x := operand flags.zx flags.nx x
  let y := operand flags.zy flags.ny y
  let out := if flags.f then x + y else x &&& y
  if flags.no then ~~~out else out

/-- Evaluates the unit on two words. -/
def compute (x y : Word) (flags : AluFlags) : AluOutput :=
  let out := result x y flags
  { out, zr := out == 0, ng := out.msb }

end Alu

/-- The functions that the instruction set names. -/
inductive AluFunction where
  | zero | one | minusOne
  | x | y
  | notX | notY
  | negX | negY
  | xPlusOne | yPlusOne
  | xMinusOne | yMinusOne
  | xPlusY | xMinusY | yMinusX
  | xAndY | xOrY
  deriving DecidableEq, Repr

namespace AluFunction

/-- The functions in the order of the instruction set's table. -/
def all : List AluFunction :=
  [.zero, .one, .minusOne, .x, .y, .notX, .notY, .negX, .negY, .xPlusOne, .yPlusOne,
    .xMinusOne, .yMinusOne, .xPlusY, .xMinusY, .yMinusX, .xAndY, .xOrY]

/-- The setting that stands for a named function. -/
def flags : AluFunction → AluFlags
  | .zero => .ofField 0b101010
  | .one => .ofField 0b111111
  | .minusOne => .ofField 0b111010
  | .x => .ofField 0b001100
  | .y => .ofField 0b110000
  | .notX => .ofField 0b001101
  | .notY => .ofField 0b110001
  | .negX => .ofField 0b001111
  | .negY => .ofField 0b110011
  | .xPlusOne => .ofField 0b011111
  | .yPlusOne => .ofField 0b110111
  | .xMinusOne => .ofField 0b001110
  | .yMinusOne => .ofField 0b110010
  | .xPlusY => .ofField 0b000010
  | .xMinusY => .ofField 0b010011
  | .yMinusX => .ofField 0b000111
  | .xAndY => .ofField 0b000000
  | .xOrY => .ofField 0b010101

/-- The function as arithmetic on words. -/
def apply (x y : Word) : AluFunction → Word
  | .zero => 0
  | .one => 1
  | .minusOne => -1
  | .x => x
  | .y => y
  | .notX => ~~~x
  | .notY => ~~~y
  | .negX => -x
  | .negY => -y
  | .xPlusOne => x + 1
  | .yPlusOne => y + 1
  | .xMinusOne => x - 1
  | .yMinusOne => y - 1
  | .xPlusY => x + y
  | .xMinusY => x - y
  | .yMinusX => y - x
  | .xAndY => x &&& y
  | .xOrY => x ||| y

/-- The named function that a setting stands for, if it has a name. -/
def ofFlags? (flags : AluFlags) : Option AluFunction :=
  all.find? fun function => function.flags == flags

end AluFunction

end HackComputer
