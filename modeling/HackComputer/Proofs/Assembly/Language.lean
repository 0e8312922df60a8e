import HackComputer.Alu

/-!
# Assembly language

What an instruction in symbolic form means, on its own: how its text is read as
a `Statement`, and what a statement does to the registers and the memory word
that it finds.  Nothing here looks at instruction words.
-/

namespace HackComputer.Assembly

/-! ## Statements -/

/-- The names of registers A and D and of the memory word that A addresses. -/
inductive Name where
  | a
  | d
  | m
  deriving DecidableEq, Repr

/-- An operand of an expression. -/
inductive Atom where
  | zero
  | one
  | named (name : Name)
  deriving DecidableEq, Repr

/-- The operators between two operands. -/
inductive Operator where
  | plus
  | minus
  | and
  | or
  deriving DecidableEq, Repr

/-- What a statement computes. -/
inductive Expression where
  | atom (inner : Atom)
  /-- The complement bit by bit. -/
  | not (inner : Atom)
  | negative (inner : Atom)
  | binary (operator : Operator) (left right : Atom)
  /-- A setting of the arithmetic/logic unit, for D and a second operand. -/
  | unit (flags : AluFlags) (second : Atom)
  deriving DecidableEq, Repr

/-- The relations to zero that a statement can jump on. -/
inductive Relation where
  | gt
  | eq
  | ge
  | lt
  | ne
  | le
  /-- Jump in any case. -/
  | always
  deriving DecidableEq, Repr

/-- An instruction in symbolic form. -/
inductive Statement where
  /-- Load a number into A. -/
  | load (number : Nat)
  /-- Store the value of an expression under each of the names, and jump if it
  has the relation. -/
  | assign (names : List Name) (expression : Expression) (relation : Option Relation)
  deriving DecidableEq, Repr

/-! ## Reading -/

/-- The name that a character is. -/
def Name.ofChar? : Char → Option Name
  | 'A' => some .a
  | 'D' => some .d
  | 'M' => some .m
  | _ => none

/-- The operand that a character is. -/
def Atom.ofChar? : Char → Option Atom
  | '0' => some .zero
  | '1' => some .one
  | char => (Name.ofChar? char).map .named

/-- The operator that a character is. -/
def Operator.ofChar? : Char → Option Operator
  | '+' => some .plus
  | '-' => some .minus
  | '&' => some .and
  | '|' => some .or
  | _ => none

/-- The flag that a character is. -/
def flagOfChar? : Char → Option Bool
  | '0' => some false
  | '1' => some true
  | _ => none

/-- Reads an expression: an operand, one with a sign before it, two with an
operator between them, or six flags and an operand. -/
def Expression.ofChars? : List Char → Option Expression
  | [char] => (Atom.ofChar? char).map .atom
  | ['!', char] => (Atom.ofChar? char).map .not
  | ['-', char] => (Atom.ofChar? char).map .negative
  | [left, operator, right] => do
    return .binary (← Operator.ofChar? operator) (← Atom.ofChar? left) (← Atom.ofChar? right)
  | ['a', 'l', 'u', '(', zx, nx, zy, ny, f, no, ',', second, ')'] => do
    let flags : AluFlags :=
      ⟨← flagOfChar? zx, ← flagOfChar? nx, ← flagOfChar? zy, ← flagOfChar? ny, ← flagOfChar? f,
        ← flagOfChar? no⟩
    return .unit flags (← Atom.ofChar? second)
  | _ => none

/-- Reads the mnemonic of a jump. -/
def Relation.ofChars? : List Char → Option Relation
  | ['J', 'G', 'T'] => some .gt
  | ['J', 'E', 'Q'] => some .eq
  | ['J', 'G', 'E'] => some .ge
  | ['J', 'L', 'T'] => some .lt
  | ['J', 'N', 'E'] => some .ne
  | ['J', 'L', 'E'] => some .le
  | ['J', 'M', 'P'] => some .always
  | _ => none

/-- Reads a number in decimal digits. -/
def numberOfChars? (digits : List Char) : Option Nat :=
  if !digits.isEmpty && digits.all Char.isDigit then some (Nat.ofDigitChars 10 digits 0) else none

/-- Reads what is behind the names of a statement: an expression, and a jump
behind a semicolon. -/
def bodyOfChars? (names : List Name) (body : List Char) : Option Statement :=
  match body.splitOn ';' with
  | [expression] => (Expression.ofChars? expression).map (.assign names · none)
  | [expression, jump] => do
    return .assign names (← Expression.ofChars? expression) (some (← Relation.ofChars? jump))
  | _ => none

/-- Reads a statement.  Names stand before an equals sign, at least one if there
is an equals sign. -/
def Statement.ofChars? : List Char → Option Statement
  | '@' :: digits => (numberOfChars? digits).map .load
  | chars =>
    match chars.splitOn '=' with
    | [body] => bodyOfChars? [] body
    | [names, body] => do
      let names ← if names.isEmpty then none else names.mapM Name.ofChar?
      bodyOfChars? names body
    | _ => none

/-- The statement that a text is, if it is one. -/
def Statement.ofText? (text : String) : Option Statement :=
  ofChars? text.toList

/-! ## Reading part by part -/

/-- None of these marks occurs in a text. -/
def Lacks (marks chars : List Char) : Prop :=
  ∀ char ∈ chars, char ∉ marks

instance (marks : List Char) : DecidablePred (Lacks marks) := fun chars =>
  List.decidableBAll (fun char => char ∉ marks) chars

section Parts

variable {marks fewer first second chars : List Char}

theorem lacks_append : Lacks marks (first ++ second) ↔ Lacks marks first ∧ Lacks marks second :=
  List.forall_mem_append

theorem lacks_cons {char : Char} :
    Lacks marks (char :: chars) ↔ char ∉ marks ∧ Lacks marks chars :=
  List.forall_mem_cons

theorem Lacks.mono (subset : fewer ⊆ marks) (lacks : Lacks marks chars) : Lacks fewer chars :=
  fun char member marked => lacks char member (subset marked)

theorem Lacks.not_mem {mark : Char} (lacks : Lacks marks chars) (marked : mark ∈ marks) :
    mark ∉ chars :=
  fun member => lacks mark member marked

variable {names body jump : List Char} {targets : List Name}

theorem bodyOfChars?_of_lacks (lacks : Lacks [';'] body) :
    bodyOfChars? targets body = (Expression.ofChars? body).map (.assign targets · none) := by
  rw [bodyOfChars?, List.splitOn_eq_singleton (lacks.not_mem List.mem_cons_self)]

theorem bodyOfChars?_of_jump (lacks : Lacks [';'] body) (lacks_jump : Lacks [';'] jump) :
    bodyOfChars? targets (body ++ ';' :: jump) = do
      return .assign targets (← Expression.ofChars? body) (some (← Relation.ofChars? jump)) := by
  rw [bodyOfChars?,
    List.splitOn_append_cons_self_of_not_mem (lacks.not_mem List.mem_cons_self),
    List.splitOn_eq_singleton (lacks_jump.not_mem List.mem_cons_self)]

theorem statementOfChars?_of_lacks_at (lacks : Lacks ['@'] chars) :
    Statement.ofChars? chars =
      match chars.splitOn '=' with
      | [body] => bodyOfChars? [] body
      | [names, body] => do
        let names ← if names.isEmpty then none else names.mapM Name.ofChar?
        bodyOfChars? names body
      | _ => none := by
  unfold Statement.ofChars?
  split
  · exact absurd List.mem_cons_self (lacks.not_mem List.mem_cons_self)
  · rfl

theorem statementOfChars?_of_lacks (lacks : Lacks ['@', '='] body) :
    Statement.ofChars? body = bodyOfChars? [] body := by
  rw [statementOfChars?_of_lacks_at (lacks.mono (by decide)),
    List.splitOn_eq_singleton (lacks.not_mem (by decide))]

theorem statementOfChars?_of_names (lacks_names : Lacks ['@', '='] names)
    (nonempty : names.isEmpty = false) (lacks : Lacks ['@', '='] body) :
    Statement.ofChars? (names ++ '=' :: body) =
      (names.mapM Name.ofChar?).bind (bodyOfChars? · body) := by
  have lacks_at : Lacks ['@'] (names ++ '=' :: body) := by
    rw [lacks_append, lacks_cons]
    exact ⟨lacks_names.mono (by decide), by decide, lacks.mono (by decide)⟩
  rw [statementOfChars?_of_lacks_at lacks_at,
    List.splitOn_append_cons_self_of_not_mem (lacks_names.not_mem (by decide)),
    List.splitOn_eq_singleton (lacks.not_mem (by decide))]
  simp only [nonempty, Bool.false_eq_true, if_false]
  rfl

end Parts

/-! ## Meaning -/

/-- What a statement finds under the names. -/
structure Operands where
  a : Word
  d : Word
  m : Word
  deriving DecidableEq, Repr

/-- What a statement changes: the words that it stores, and whether it jumps. -/
@[ext]
structure Effect where
  a : Option Word
  d : Option Word
  m : Option Word
  jumps : Bool
  deriving DecidableEq, Repr

variable (operands : Operands)

/-- The word under a name. -/
def Name.value : Name → Word
  | .a => operands.a
  | .d => operands.d
  | .m => operands.m

/-- The value of an operand. -/
def Atom.value : Atom → Word
  | .zero => 0
  | .one => 1
  | .named name => name.value operands

/-- An operator on words.  Sums and differences are taken modulo `2 ^ 16`. -/
def Operator.apply (left right : Word) : Operator → Word
  | .plus => left + right
  | .minus => left - right
  | .and => left &&& right
  | .or => left ||| right

/-- The value of an expression. -/
def Expression.value : Expression → Word
  | .atom inner => inner.value operands
  | .not inner => ~~~(inner.value operands)
  | .negative inner => -(inner.value operands)
  | .binary operator left right => operator.apply (left.value operands) (right.value operands)
  | .unit flags second => Alu.result operands.d (second.value operands) flags

/-- Does a number have the relation to zero? -/
def Relation.Holds (number : Int) : Relation → Prop
  | .gt => 0 < number
  | .eq => number = 0
  | .ge => 0 ≤ number
  | .lt => number < 0
  | .ne => number ≠ 0
  | .le => number ≤ 0
  | .always => True

instance (number : Int) : DecidablePred (Relation.Holds number) := fun
  | .gt => inferInstanceAs (Decidable (0 < number))
  | .eq => inferInstanceAs (Decidable (number = 0))
  | .ge => inferInstanceAs (Decidable (0 ≤ number))
  | .lt => inferInstanceAs (Decidable (number < 0))
  | .ne => inferInstanceAs (Decidable (number ≠ 0))
  | .le => inferInstanceAs (Decidable (number ≤ 0))
  | .always => inferInstanceAs (Decidable True)

/-- Does a statement jump on a value?  Without a relation it never does, and the
relation is that of the signed value. -/
def jumpsOn (relation : Option Relation) (value : Word) : Bool :=
  match relation with
  | none => false
  | some relation => decide (relation.Holds value.toInt)

/-- What a statement changes.  It stores to the names that it lists and to no
others. -/
def Statement.effect : Statement → Effect
  | .load number => ⟨some (BitVec.ofNat 16 number), none, none, false⟩
  | .assign names expression relation =>
    let value := expression.value operands
    { a := if .a ∈ names then some value else none
      d := if .d ∈ names then some value else none
      m := if .m ∈ names then some value else none
      jumps := jumpsOn relation value }

example : (Statement.ofText? "AM=M-1;JNE").map (Statement.effect ⟨7, 3, 1⟩) =
    some ⟨some 0, none, some 0, false⟩ := by
  decide +kernel

end HackComputer.Assembly
