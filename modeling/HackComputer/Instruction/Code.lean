import HackComputer.Instruction

/-!
# Instruction words

Bit 15 tells the two kinds apart.  An address instruction has its literal in
the other fifteen bits.  A compute instruction has, from the top: two unused
bits, the operand source, the six unit flags, the three destinations and the
three jump conditions.  Encoding sets the unused bits; decoding ignores them.
-/

namespace HackComputer.Instruction

/-- Decodes a word.  Every word is an instruction. -/
def decode (word : Word) : Instruction :=
  if word.getLsbD 15 then
    .compute
      { ySource := if word.getLsbD 12 then .memory else .register
        alu := .ofField (word.extractLsb' 6 6)
        dest := .ofField (word.extractLsb' 3 3)
        jump := .ofField (word.extractLsb' 0 3) }
  else .address word.low15

/-- Encodes an instruction.  A literal keeps its low fifteen bits. -/
def encode : Instruction → Word
  | .address literal => literal.low15
  | .compute fields =>
    0b111#3 ++ BitVec.ofBool (fields.ySource == .memory) ++ fields.alu.toField ++
      fields.dest.toField ++ fields.jump.toField

end HackComputer.Instruction
