import HackComputer.Proofs.Assembly.Disassembly

/-!
# Instructions that share a text

The text of an instruction shows all its fields but one: eight of the named
functions have no second operand, and their text does not say where it would come
from.  Two instructions share a text exactly if they agree in everything else.
-/

namespace HackComputer

/-- Does the function have a second operand? -/
def AluFunction.usesSecond : AluFunction → Bool
  | .zero | .one | .minusOne | .x | .notX | .negX | .xPlusOne | .xMinusOne => false
  | .y | .notY | .negY | .yPlusOne | .yMinusOne | .xPlusY | .xMinusY | .yMinusX | .xAndY
  | .xOrY => true

theorem AluFunction.apply_congr {function : AluFunction} (unused : function.usesSecond = false)
    (x y y' : Word) : function.apply x y = function.apply x y' := by
  cases function <;> first | rfl | contradiction

/-- Does the text of a compute instruction show where its second operand comes
from? -/
def Compute.showsSource (fields : Compute) : Bool :=
  match AluFunction.ofFlags? fields.alu with
  | some function => function.usesSecond
  | none => true

/-- An operand that the text does not show has no influence on the result. -/
theorem Compute.result_congr {fields : Compute} (hidden : fields.showsSource = false)
    (d y y' : Word) : fields.result d y = fields.result d y' := by
  rw [showsSource] at hidden
  cases found : AluFunction.ofFlags? fields.alu with
  | none =>
      rw [found] at hidden
      contradiction
  | some function =>
      rw [found] at hidden
      rw [result, result, ← AluFunction.flags_of_ofFlags? found, Alu.result_flags, Alu.result_flags]
      exact AluFunction.apply_congr hidden d y y'

namespace Assembly

/-! ## What the parts of a text determine -/

theorem namesOfDest_inj {first second : Dest} (same : namesOfDest first = namesOfDest second) :
    first = second := by
  obtain ⟨a_iff, d_iff, m_iff⟩ := mem_namesOfDest_iff first
  obtain ⟨a_iff', d_iff', m_iff'⟩ := mem_namesOfDest_iff second
  rw [same] at a_iff d_iff m_iff
  rcases first with ⟨a, d, m⟩
  rcases second with ⟨a', d', m'⟩
  obtain rfl : a = a' := Bool.eq_iff_iff.2 (a_iff.symm.trans a_iff')
  obtain rfl : d = d' := Bool.eq_iff_iff.2 (d_iff.symm.trans d_iff')
  obtain rfl : m = m' := Bool.eq_iff_iff.2 (m_iff.symm.trans m_iff')
  rfl

theorem ofJump?_inj {first second : Jump} (same : Relation.ofJump? first = Relation.ofJump? second) :
    first = second := by
  -- A condition lists the signs of the numbers that its relation holds for.
  have signs_iff (number : Int) :
      (first.lt = true ∧ number < 0) ∨ (first.eq = true ∧ number = 0) ∨
          (first.gt = true ∧ 0 < number) ↔
        (second.lt = true ∧ number < 0) ∨ (second.eq = true ∧ number = 0) ∨
          (second.gt = true ∧ 0 < number) := by
    rw [← exists_holds_iff, ← exists_holds_iff, same]
  rcases first with ⟨lt, eq, gt⟩
  rcases second with ⟨lt', eq', gt'⟩
  obtain rfl : lt = lt' := Bool.eq_iff_iff.2 (by simpa using signs_iff (-1))
  obtain rfl : eq = eq' := Bool.eq_iff_iff.2 (by simpa using signs_iff 0)
  obtain rfl : gt = gt' := Bool.eq_iff_iff.2 (by simpa using signs_iff 1)
  rfl

/-- The expression of a named function determines the function, and its second
operand if it has one. -/
theorem ofFunction_inj {source source' : YSource} {function function' : AluFunction}
    (same : Expression.ofFunction (.named (.ofSource source)) function =
      .ofFunction (.named (.ofSource source')) function') :
    function = function' ∧ (function.usesSecond = true → source = source') := by
  have listed (function : AluFunction) : function ∈ AluFunction.all := by
    cases function <;> decide
  have inj : ∀ function ∈ AluFunction.all, ∀ function' ∈ AluFunction.all,
      Expression.ofFunction (.named (.ofSource source)) function =
          .ofFunction (.named (.ofSource source')) function' →
        function = function' ∧ (function.usesSecond = true → source = source') := by
    cases source <;> cases source' <;> decide +kernel
  exact inj function (listed function) function' (listed function') same

theorem ofFunction_ne_unit {source source' : YSource} {function : AluFunction}
    {flags : AluFlags} :
    Expression.ofFunction (.named (.ofSource source)) function ≠
      .unit flags (.named (.ofSource source')) := by
  cases function <;> nofun

theorem ofSource_inj {source source' : YSource}
    (same : Name.ofSource source = Name.ofSource source') : source = source' := by
  cases source <;> cases source' <;> first | rfl | contradiction

/-- The expression of a unit setting determines the setting, and the second operand
if the text shows it. -/
theorem ofFlags_inj {first second : Compute}
    (same : Expression.ofFlags first.alu (.named (.ofSource first.ySource)) =
      .ofFlags second.alu (.named (.ofSource second.ySource))) :
    first.alu = second.alu ∧ (first.showsSource = true → first.ySource = second.ySource) := by
  simp only [Expression.ofFlags] at same
  rw [Compute.showsSource]
  cases found : AluFunction.ofFlags? first.alu with
  | none =>
      cases found' : AluFunction.ofFlags? second.alu with
      | none =>
          simp only [found, found', Expression.unit.injEq, Atom.named.injEq] at same
          exact ⟨same.1, fun _ => ofSource_inj same.2⟩
      | some function' =>
          simp only [found, found'] at same
          exact absurd same.symm ofFunction_ne_unit
  | some function =>
      cases found' : AluFunction.ofFlags? second.alu with
      | none =>
          simp only [found, found'] at same
          exact absurd same ofFunction_ne_unit
      | some function' =>
          simp only [found, found'] at same
          obtain ⟨rfl, source_eq⟩ := ofFunction_inj same
          refine ⟨?_, source_eq⟩
          rw [← AluFunction.flags_of_ofFlags? found, ← AluFunction.flags_of_ofFlags? found']

/-! ## What a whole text determines -/

/-- The two instructions are the same, or they are compute instructions that differ
in a second operand that the text does not show. -/
def SameBarHidden (first second : Instruction) : Prop :=
  first = second ∨
    ∃ fields source, first = .compute fields ∧
      second = .compute { fields with ySource := source } ∧ fields.showsSource = false

theorem compText_of_hidden {fields : Compute} (hidden : fields.showsSource = false)
    (source source' : YSource) : compText fields.alu source = compText fields.alu source' := by
  rw [Compute.showsSource] at hidden
  rw [compText, compText]
  cases found : AluFunction.ofFlags? fields.alu with
  | none =>
      rw [found] at hidden
      contradiction
  | some function =>
      rw [found] at hidden
      dsimp only
      rw [fill_template, fill_template]
      cases function <;> first | rfl | contradiction

/-- Instructions share a text exactly if it hides all that they differ in. -/
theorem text_eq_iff {first second : Instruction} :
    text first = text second ↔ SameBarHidden first second := by
  constructor
  · intro same
    have statements := congrArg Statement.ofText? same
    rw [statementOfText?_text, statementOfText?_text, Option.some.injEq] at statements
    cases first with
    | address literal =>
        cases second with
        | address literal' =>
            rw [Statement.ofInstruction, Statement.ofInstruction, Statement.load.injEq] at statements
            exact .inl (congrArg Instruction.address (BitVec.eq_of_toNat_eq statements))
        | compute fields' => cases statements
    | compute fields =>
        cases second with
        | address literal' => cases statements
        | compute fields' =>
            rw [Statement.ofInstruction, Statement.ofInstruction, Statement.assign.injEq]
              at statements
            obtain ⟨names_eq, expression_eq, relation_eq⟩ := statements
            have dest_eq := namesOfDest_inj names_eq
            have jump_eq := ofJump?_inj relation_eq
            obtain ⟨alu_eq, source_eq⟩ := ofFlags_inj expression_eq
            cases shown : fields.showsSource with
            | true =>
                left
                rcases fields with ⟨source, flags, dest, jump⟩
                rcases fields' with ⟨source', flags', dest', jump'⟩
                obtain rfl : source = source' := source_eq shown
                cases alu_eq
                cases dest_eq
                cases jump_eq
                rfl
            | false =>
                right
                refine ⟨fields, fields'.ySource, rfl, ?_, shown⟩
                rcases fields with ⟨source, flags, dest, jump⟩
                rcases fields' with ⟨source', flags', dest', jump'⟩
                cases alu_eq
                cases dest_eq
                cases jump_eq
                rfl
  · rintro (rfl | ⟨fields, source, rfl, rfl, hidden⟩)
    · rfl
    · simp only [text, computeText, compText_of_hidden hidden source fields.ySource]

theorem disassemble_eq_iff {first second : Word} :
    disassemble first = disassemble second ↔
      SameBarHidden (.decode first) (.decode second) :=
  text_eq_iff

end Assembly

end HackComputer
