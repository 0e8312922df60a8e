import HackComputer.Assembly
import HackComputer.Proofs.Alu
import HackComputer.Proofs.Assembly.Language
import HackComputer.Proofs.Machine.Cycle

/-!
# What disassembled instructions mean

The text of an instruction is read as `Statement.ofInstruction` says, part by
part: the names of the destinations, the expression, the jump.  What this
statement does is what the processor does with the instruction.
-/

namespace HackComputer

namespace Assembly

/-! ## The statement of an instruction -/

/-- The name of the second operand. -/
def Name.ofSource : YSource → Name
  | .register => .a
  | .memory => .m

/-- A named function as an expression in D and the operand `y`. -/
def Expression.ofFunction (y : Atom) : AluFunction → Expression
  | .zero => .atom .zero
  | .one => .atom .one
  | .minusOne => .negative .one
  | .x => .atom (.named .d)
  | .y => .atom y
  | .notX => .not (.named .d)
  | .notY => .not y
  | .negX => .negative (.named .d)
  | .negY => .negative y
  | .xPlusOne => .binary .plus (.named .d) .one
  | .yPlusOne => .binary .plus y .one
  | .xMinusOne => .binary .minus (.named .d) .one
  | .yMinusOne => .binary .minus y .one
  | .xPlusY => .binary .plus (.named .d) y
  | .xMinusY => .binary .minus (.named .d) y
  | .yMinusX => .binary .minus y (.named .d)
  | .xAndY => .binary .and (.named .d) y
  | .xOrY => .binary .or (.named .d) y

/-- The expression of a unit setting. -/
def Expression.ofFlags (flags : AluFlags) (y : Atom) : Expression :=
  match AluFunction.ofFlags? flags with
  | some function => .ofFunction y function
  | none => .unit flags y

/-- The names of the destinations, in the fixed order of the assembler. -/
def namesOfDest (dest : Dest) : List Name :=
  (if dest.a then [.a] else []) ++ (if dest.m then [.m] else []) ++
    (if dest.d then [.d] else [])

/-- The relation of a jump condition, if it can be met. -/
def Relation.ofJump? : Jump → Option Relation
  | ⟨false, false, false⟩ => none
  | ⟨false, false, true⟩ => some .gt
  | ⟨false, true, false⟩ => some .eq
  | ⟨false, true, true⟩ => some .ge
  | ⟨true, false, false⟩ => some .lt
  | ⟨true, false, true⟩ => some .ne
  | ⟨true, true, false⟩ => some .le
  | ⟨true, true, true⟩ => some .always

/-- The statement that an instruction is. -/
def Statement.ofInstruction : Instruction → Statement
  | .address literal => .load literal.toNat
  | .compute fields =>
    .assign (namesOfDest fields.dest)
      (.ofFlags fields.alu (.named (.ofSource fields.ySource))) (Relation.ofJump? fields.jump)

/-! ## The text of its expression -/

/-- A named function as an expression in D and the second operand `y`. -/
def functionText (y : String) : AluFunction → String
  | .zero => "0"
  | .one => "1"
  | .minusOne => "-1"
  | .x => "D"
  | .y => y
  | .notX => "!D"
  | .notY => "!" ++ y
  | .negX => "-D"
  | .negY => "-" ++ y
  | .xPlusOne => "D+1"
  | .yPlusOne => y ++ "+1"
  | .xMinusOne => "D-1"
  | .yMinusOne => y ++ "-1"
  | .xPlusY => "D+" ++ y
  | .xMinusY => "D-" ++ y
  | .yMinusX => y ++ "-D"
  | .xAndY => "D&" ++ y
  | .xOrY => "D|" ++ y

/-- Filling a template puts the name of the second operand in its place. -/
theorem fill_template (y : String) (function : AluFunction) :
    fill y (template function) = functionText y function := by
  apply String.toList_inj.1
  cases function <;> simp [fill, template, functionText]

/-- The marks between the parts of a statement. -/
def marks : List Char :=
  ['@', '=', ';']

/-- What no part of an instruction's text contains: the marks between them, and the end
of the line. -/
def reserved : List Char :=
  '\n' :: marks

/-- The character that the name of the second operand is. -/
def sourceChar : YSource → Char
  | .register => 'A'
  | .memory => 'M'

theorem toList_operandName (source : YSource) :
    (operandName source).toList = [sourceChar source] := by
  cases source <;> rfl

theorem atomOfChar?_sourceChar (source : YSource) :
    Atom.ofChar? (sourceChar source) = some (.named (.ofSource source)) := by
  cases source <;> rfl

theorem flagOfChar?_binaryDigit (bit : Bool) : flagOfChar? (Word.binaryDigit bit) = some bit := by
  cases bit <;> rfl

theorem functionText_spec (source : YSource) (function : AluFunction) :
    Expression.ofChars? (functionText (operandName source) function).toList =
        some (.ofFunction (.named (.ofSource source)) function) ∧
      Lacks reserved (functionText (operandName source) function).toList := by
  cases source <;> cases function <;> decide +kernel

theorem toList_unitText (flags : AluFlags) (source : YSource) :
    ("alu(" ++ flagsText flags ++ "," ++ operandName source ++ ")").toList =
      ['a', 'l', 'u', '('] ++
        [flags.zx, flags.nx, flags.zy, flags.ny, flags.f, flags.no].map Word.binaryDigit ++
          [',', sourceChar source, ')'] := by
  simp only [String.toList_append, flagsText, String.toList_ofList, toList_operandName]
  rfl

theorem unitText_spec (flags : AluFlags) (source : YSource) :
    Expression.ofChars? ("alu(" ++ flagsText flags ++ "," ++ operandName source ++ ")").toList =
        some (.unit flags (.named (.ofSource source))) ∧
      Lacks reserved ("alu(" ++ flagsText flags ++ "," ++ operandName source ++ ")").toList := by
  rw [toList_unitText]
  constructor
  · simp only [List.map_cons, List.map_nil, List.cons_append, List.nil_append, Expression.ofChars?,
      flagOfChar?_binaryDigit, atomOfChar?_sourceChar]
    rfl
  · rw [lacks_append, lacks_append]
    refine ⟨⟨by decide, ?_⟩, by cases source <;> decide⟩
    intro char member
    obtain ⟨bit, -, rfl⟩ := List.mem_map.1 member
    cases bit <;> decide

theorem compText_spec (flags : AluFlags) (source : YSource) :
    Expression.ofChars? (compText flags source).toList =
        some (.ofFlags flags (.named (.ofSource source))) ∧
      Lacks reserved (compText flags source).toList := by
  rw [compText, Expression.ofFlags]
  cases AluFunction.ofFlags? flags with
  | some function =>
      dsimp only
      rw [fill_template]
      exact functionText_spec source function
  | none => exact unitText_spec flags source

/-! ## The text of its jump -/

/-- The jump at the end of a compute instruction. -/
def jumpPart (jump : Jump) : String :=
  match jumpText? jump with
  | none => ""
  | some mnemonic => ";" ++ mnemonic

/-- A condition has a mnemonic exactly if it has a relation, which is the one
that the mnemonic stands for. -/
theorem jumpText?_spec (jump : Jump) :
    jumpText? jump = none ∧ Relation.ofJump? jump = none ∨
      ∃ mnemonic relation, jumpText? jump = some mnemonic ∧
        Relation.ofJump? jump = some relation ∧
          Relation.ofChars? mnemonic.toList = some relation ∧ Lacks reserved mnemonic.toList := by
  rcases jump with ⟨lt, eq, gt⟩
  cases lt <;> cases eq <;> cases gt
  · exact .inl ⟨rfl, rfl⟩
  all_goals exact .inr ⟨_, _, rfl, rfl, rfl, by decide +kernel⟩

/-- What the text of a jump adds to a statement. -/
theorem jumpPart_spec (jump : Jump) :
    Lacks ['@', '='] (jumpPart jump).toList ∧
      ∀ {names chars expression}, Lacks [';'] chars →
        Expression.ofChars? chars = some expression →
          bodyOfChars? names (chars ++ (jumpPart jump).toList) =
            some (.assign names expression (Relation.ofJump? jump)) := by
  rcases jumpText?_spec jump with
    ⟨no_text, no_relation⟩ | ⟨mnemonic, relation, text_eq, found, read_jump, lacks_jump⟩
  · have part_eq : (jumpPart jump).toList = [] := by
      rw [jumpPart, no_text]
      rfl
    rw [part_eq, no_relation]
    refine ⟨by decide, fun lacks read => ?_⟩
    rw [List.append_nil, bodyOfChars?_of_lacks lacks, read, Option.map_some]
  · have part_eq : (jumpPart jump).toList = ';' :: mnemonic.toList := by
      rw [jumpPart, text_eq]
      exact String.toList_append
    rw [part_eq, found]
    refine ⟨lacks_cons.2 ⟨by decide, lacks_jump.mono (by decide)⟩, fun lacks read => ?_⟩
    rw [bodyOfChars?_of_jump lacks (lacks_jump.mono (by decide)), read, read_jump]
    rfl

/-! ## The text of its destinations -/

/-- The destinations at the start of a compute instruction. -/
def storePart (dest : Dest) : String :=
  if dest.isEmpty then "" else destText dest ++ "="

theorem destText_spec (dest : Dest) :
    (destText dest).toList.mapM Name.ofChar? = some (namesOfDest dest) ∧
      (destText dest).toList.isEmpty = dest.isEmpty ∧ Lacks reserved (destText dest).toList := by
  rcases dest with ⟨a, d, m⟩
  cases a <;> cases d <;> cases m <;> decide +kernel

/-- What the text of the destinations adds to a statement. -/
theorem statementOfChars?_storePart (dest : Dest) {body : List Char}
    (lacks : Lacks ['@', '='] body) :
    Statement.ofChars? ((storePart dest).toList ++ body) =
      bodyOfChars? (namesOfDest dest) body := by
  obtain ⟨read, empty_eq, lacks_names⟩ := destText_spec dest
  cases empty : dest.isEmpty with
  | true =>
      have part_eq : (storePart dest).toList ++ body = body := by
        rw [storePart, if_pos empty]
        rfl
      rw [empty, List.isEmpty_iff] at empty_eq
      rw [empty_eq] at read
      obtain names_eq : [] = namesOfDest dest := Option.some.inj read
      rw [part_eq, statementOfChars?_of_lacks lacks, ← names_eq]
  | false =>
      have part_eq : (storePart dest).toList ++ body = (destText dest).toList ++ '=' :: body := by
        rw [storePart, if_neg (by rw [empty]; decide), String.toList_append, List.append_assoc]
        rfl
      rw [part_eq, statementOfChars?_of_names (lacks_names.mono (by decide))
        (empty_eq.trans empty) lacks, read, Option.bind_some]

/-! ## Reading a whole instruction -/

theorem numberOfChars?_toString (number : Nat) :
    numberOfChars? (toString number).toList = some number := by
  have digits_eq : (toString number).toList = Nat.toDigits 10 number := Nat.toList_repr
  have nonempty : (Nat.toDigits 10 number).isEmpty = false :=
    List.isEmpty_eq_false_iff.2 Nat.toDigits_ne_nil
  have decimal : (Nat.toDigits 10 number).all Char.isDigit = true := by
    rw [List.all_eq_true]
    exact fun digit member => Nat.isDigit_of_mem_toDigits (by decide) (by decide) member
  rw [numberOfChars?, digits_eq, nonempty, decimal]
  exact congrArg some Nat.ofDigitChars_ten_toDigits

theorem toList_text_address (literal : Word) :
    (text (.address literal)).toList = '@' :: (toString literal.toNat).toList :=
  String.toList_append

theorem toList_text_compute (fields : Compute) :
    (text (.compute fields)).toList =
      (storePart fields.dest).toList ++
        ((compText fields.alu fields.ySource).toList ++ (jumpPart fields.jump).toList) := by
  rw [← List.append_assoc, ← String.toList_append, ← String.toList_append]
  rfl

/-- The text of an instruction is its statement. -/
theorem statementOfText?_text (instruction : Instruction) :
    Statement.ofText? (text instruction) = some (.ofInstruction instruction) := by
  cases instruction with
  | address literal =>
      rw [Statement.ofText?, toList_text_address, Statement.ofChars?, numberOfChars?_toString]
      rfl
  | compute fields =>
      obtain ⟨read, lacks⟩ := compText_spec fields.alu fields.ySource
      obtain ⟨lacks_jump, read_jump⟩ := jumpPart_spec fields.jump
      rw [Statement.ofText?, toList_text_compute, statementOfChars?_storePart _
        (lacks_append.2 ⟨lacks.mono (by decide), lacks_jump⟩), read_jump (lacks.mono (by decide)) read]
      rfl

/-! ## What it does -/

variable {operands : Operands}

theorem value_ofFunction (y : Atom) (function : AluFunction) :
    (Expression.ofFunction y function).value operands =
      function.apply operands.d (y.value operands) := by
  cases function <;> rfl

theorem value_ofFlags (flags : AluFlags) (y : Atom) :
    (Expression.ofFlags flags y).value operands =
      Alu.result operands.d (y.value operands) flags := by
  rw [Expression.ofFlags]
  cases found : AluFunction.ofFlags? flags with
  | none => rfl
  | some function =>
      rw [← AluFunction.flags_of_ofFlags? found, Alu.result_flags]
      exact value_ofFunction y function

theorem value_ofSource (cpu : Cpu) (inM : Word) (fields : Compute) :
    (Name.ofSource fields.ySource).value ⟨cpu.a, cpu.d, inM⟩ = fields.operand cpu.a inM := by
  rw [Compute.operand]
  cases fields.ySource <;> rfl

/-- The names are those of the destinations. -/
theorem mem_namesOfDest_iff (dest : Dest) :
    (.a ∈ namesOfDest dest ↔ dest.a = true) ∧ (.d ∈ namesOfDest dest ↔ dest.d = true) ∧
      (.m ∈ namesOfDest dest ↔ dest.m = true) := by
  rcases dest with ⟨a, d, m⟩
  cases a <;> cases d <;> cases m <;> decide

/-- The relation of a condition holds for the signs that the condition lists. -/
theorem exists_holds_iff (jump : Jump) (number : Int) :
    (∃ relation, Relation.ofJump? jump = some relation ∧ relation.Holds number) ↔
      (jump.lt = true ∧ number < 0) ∨ (jump.eq = true ∧ number = 0) ∨
        (jump.gt = true ∧ 0 < number) := by
  rcases jump with ⟨lt, eq, gt⟩
  cases lt <;> cases eq <;> cases gt <;> simp [Relation.ofJump?, Relation.Holds] <;> omega

theorem jumpsOn_ofJump? (jump : Jump) (out : Word) :
    jumpsOn (Relation.ofJump? jump) out = jump.isTaken (out == 0) out.msb := by
  have jumpsOn_iff : jumpsOn (Relation.ofJump? jump) out = true ↔
      ∃ relation, Relation.ofJump? jump = some relation ∧ relation.Holds out.toInt := by
    cases Relation.ofJump? jump <;> simp [jumpsOn]
  rw [Bool.eq_iff_iff, Jump.isTaken_iff, jumpsOn_iff, exists_holds_iff]

end Assembly

/-- What an evaluation has the processor change. -/
def Evaluation.effect (evaluation : Evaluation) : Assembly.Effect where
  a := evaluation.nextA
  d := evaluation.nextD
  m := if evaluation.writeM then some evaluation.outM else none
  jumps := evaluation.jump

namespace Assembly

theorem effect_ofInstruction (cpu : Cpu) (word inM : Word) :
    (Statement.ofInstruction (.decode word)).effect ⟨cpu.a, cpu.d, inM⟩ =
      (cpu.evaluate word inM).effect := by
  have writeM := cpu.evaluate_writeM word inM
  cases found : Instruction.decode word with
  | address literal =>
      obtain ⟨nextA, nextD, jump⟩ := cpu.evaluate_of_address inM found
      rw [found] at writeM
      rw [Statement.ofInstruction, Statement.effect, Evaluation.effect, nextA, nextD, jump, writeM,
        BitVec.ofNat_toNat, BitVec.setWidth_eq]
      rfl
  | compute fields =>
      obtain ⟨nextA, nextD, jump, outM⟩ := cpu.evaluate_of_compute inM found
      obtain ⟨names_a, names_d, names_m⟩ := mem_namesOfDest_iff fields.dest
      rw [found] at writeM
      have value_eq : (Expression.ofFlags fields.alu (.named (.ofSource fields.ySource))).value
          ⟨cpu.a, cpu.d, inM⟩ = fields.result cpu.d (fields.operand cpu.a inM) := by
        rw [value_ofFlags, Atom.value, value_ofSource]
        rfl
      rw [Statement.ofInstruction, Statement.effect, Evaluation.effect, value_eq, nextA, nextD, jump,
        outM, writeM, jumpsOn_ofJump?]
      simp only [names_a, names_d, names_m]
      rfl

/-- The text of an instruction word is a statement of the assembly language, and
what the statement does, the processor does with the word: it stores the same
words in the same places and jumps in the same cases. -/
theorem disassemble_means_evaluate (cpu : Cpu) (word inM : Word) :
    ∃ statement, Statement.ofText? (disassemble word) = some statement ∧
      statement.effect ⟨cpu.a, cpu.d, inM⟩ = (cpu.evaluate word inM).effect :=
  ⟨_, statementOfText?_text _, effect_ofInstruction cpu word inM⟩

end Assembly

end HackComputer
