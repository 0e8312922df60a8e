import HackComputer.Instruction.Code
import HackComputer.Text.Align
import HackComputer.Word.Binary

/-!
# Assembly language of instructions

Instructions in symbolic form: `@21`, `D=D+M`, `0;JMP`, `AM=M-1;JNE`.  A unit
setting without a name is shown as its six flags and its second operand.
-/

namespace HackComputer.Assembly

/-- The name of the second operand. -/
def operandName : YSource → String
  | .register => "A"
  | .memory => "M"

/-- A named function as an expression in D and the second operand, which is
written `Y`. -/
def template : AluFunction → String
  | .zero => "0"
  | .one => "1"
  | .minusOne => "-1"
  | .x => "D"
  | .y => "Y"
  | .notX => "!D"
  | .notY => "!Y"
  | .negX => "-D"
  | .negY => "-Y"
  | .xPlusOne => "D+1"
  | .yPlusOne => "Y+1"
  | .xMinusOne => "D-1"
  | .yMinusOne => "Y-1"
  | .xPlusY => "D+Y"
  | .xMinusY => "D-Y"
  | .yMinusX => "Y-D"
  | .xAndY => "D&Y"
  | .xOrY => "D|Y"

/-- A template with `y` in place of every `Y`. -/
def fill (y template : String) : String :=
  String.ofList (template.toList.flatMap fun char => if char = 'Y' then y.toList else [char])

/-- A unit setting as its six binary digits. -/
def flagsText (flags : AluFlags) : String :=
  String.ofList
    ([flags.zx, flags.nx, flags.zy, flags.ny, flags.f, flags.no].map Word.binaryDigit)

/-- The expression that a compute instruction evaluates. -/
def compText (flags : AluFlags) (source : YSource) : String :=
  match AluFunction.ofFlags? flags with
  | some function => fill (operandName source) (template function)
  | none => "alu(" ++ flagsText flags ++ "," ++ operandName source ++ ")"

/-- The names of the destinations, in the fixed order of the assembler. -/
def destText : Dest → String
  | ⟨false, false, false⟩ => ""
  | ⟨false, false, true⟩ => "M"
  | ⟨false, true, false⟩ => "D"
  | ⟨false, true, true⟩ => "MD"
  | ⟨true, false, false⟩ => "A"
  | ⟨true, false, true⟩ => "AM"
  | ⟨true, true, false⟩ => "AD"
  | ⟨true, true, true⟩ => "AMD"

/-- The mnemonic of a jump condition, if it can be met. -/
def jumpText? : Jump → Option String
  | ⟨false, false, false⟩ => none
  | ⟨false, false, true⟩ => some "JGT"
  | ⟨false, true, false⟩ => some "JEQ"
  | ⟨false, true, true⟩ => some "JGE"
  | ⟨true, false, false⟩ => some "JLT"
  | ⟨true, false, true⟩ => some "JNE"
  | ⟨true, true, false⟩ => some "JLE"
  | ⟨true, true, true⟩ => some "JMP"

/-- A compute instruction in symbolic form. -/
def computeText (fields : Compute) : String :=
  let store := if fields.dest.isEmpty then "" else destText fields.dest ++ "="
  let jump := match jumpText? fields.jump with
    | none => ""
    | some mnemonic => ";" ++ mnemonic
  store ++ compText fields.alu fields.ySource ++ jump

/-- An instruction in symbolic form. -/
def text : Instruction → String
  | .address literal => "@" ++ toString literal.toNat
  | .compute fields => computeText fields

/-- An instruction word in symbolic form. -/
def disassemble (word : Word) : String :=
  text (.decode word)

/-- The two header lines of a listing and the empty line after them. -/
def listingHeader : String :=
  "// Hack Disassembly\n// ----------------\n\n"

/-- One line of a listing: address, symbolic form and binary text. -/
def listingLine (address : Nat) (word : Word) : String :=
  Text.zeroPadded 5 address ++ ": " ++ Text.alignLeft 16 (disassemble word) ++ " // " ++
    word.toBinary ++ "\n"

/-- The listing of a program, one line for each word. -/
def listing (words : List Word) : String :=
  listingHeader ++ String.join (words.zipIdx.map fun entry => listingLine entry.2 entry.1)

end HackComputer.Assembly
