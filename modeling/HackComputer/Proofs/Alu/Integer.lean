import HackComputer.Proofs.Alu
import Mathlib.Data.Int.Bitwise

/-!
# The unit as integer arithmetic

A named function is a function of unbounded integers, which are taken bit by bit in two's
complement.  `BitVec.ofInt` keeps every such function, so what the unit computes is the
named function modulo `2 ^ 16`, with the operands read as signed and as unsigned numbers
alike.  The jump conditions with one bit stand for the three ways in which a signed
result compares with zero.
-/

namespace HackComputer

/-! ## Words of integers -/

namespace Word

/-- The word of an integer has the low bits of its two's complement. -/
theorem getLsbD_ofInt (number : Int) (index : Nat) :
    (BitVec.ofInt 16 number).getLsbD index = (decide (index < 16) && number.testBit index) := by
  cases number with
  | ofNat number =>
      rw [Int.ofNat_eq_natCast, BitVec.ofInt_natCast, BitVec.getLsbD_ofNat]
      rfl
  | negSucc number =>
      rw [BitVec.ofInt_negSucc_eq_not_ofNat, BitVec.getLsbD_not, BitVec.getLsbD_ofNat,
        Int.testBit]
      cases decide (index < 16) <;> rfl

theorem ofInt_lnot (number : Int) : BitVec.ofInt 16 number.lnot = ~~~BitVec.ofInt 16 number := by
  apply BitVec.eq_of_getLsbD_eq
  intro index small
  rw [BitVec.getLsbD_not, getLsbD_ofInt, getLsbD_ofInt, Int.testBit_lnot, decide_eq_true small,
    Bool.true_and, Bool.true_and, Bool.true_and]

theorem ofInt_land (x y : Int) :
    BitVec.ofInt 16 (x.land y) = BitVec.ofInt 16 x &&& BitVec.ofInt 16 y := by
  apply BitVec.eq_of_getLsbD_eq
  intro index small
  rw [BitVec.getLsbD_and, getLsbD_ofInt, getLsbD_ofInt, getLsbD_ofInt, Int.testBit_land,
    decide_eq_true small, Bool.true_and, Bool.true_and, Bool.true_and]

theorem ofInt_lor (x y : Int) :
    BitVec.ofInt 16 (x.lor y) = BitVec.ofInt 16 x ||| BitVec.ofInt 16 y := by
  apply BitVec.eq_of_getLsbD_eq
  intro index small
  rw [BitVec.getLsbD_or, getLsbD_ofInt, getLsbD_ofInt, getLsbD_ofInt, Int.testBit_lor,
    decide_eq_true small, Bool.true_and, Bool.true_and, Bool.true_and]

theorem ofInt_sub (x y : Int) :
    BitVec.ofInt 16 (x - y) = BitVec.ofInt 16 x - BitVec.ofInt 16 y := by
  rw [Int.sub_eq_add_neg, BitVec.ofInt_add, BitVec.ofInt_neg, BitVec.sub_eq_add_neg]

theorem ofInt_toNat (word : Word) : BitVec.ofInt 16 word.toNat = word := by
  rw [BitVec.ofInt_natCast, BitVec.ofNat_toNat, BitVec.setWidth_eq]

end Word

/-! ## Named functions of integers -/

namespace AluFunction

/-- The function on unbounded integers. -/
def integer (x y : Int) : AluFunction → Int
  | .zero => 0
  | .one => 1
  | .minusOne => -1
  | .x => x
  | .y => y
  | .notX => x.lnot
  | .notY => y.lnot
  | .negX => -x
  | .negY => -y
  | .xPlusOne => x + 1
  | .yPlusOne => y + 1
  | .xMinusOne => x - 1
  | .yMinusOne => y - 1
  | .xPlusY => x + y
  | .xMinusY => x - y
  | .yMinusX => y - x
  | .xAndY => x.land y
  | .xOrY => x.lor y

/-- It makes no difference whether the operands or the result are reduced modulo
`2 ^ 16`. -/
theorem ofInt_integer (x y : Int) (function : AluFunction) :
    BitVec.ofInt 16 (function.integer x y) =
      function.apply (BitVec.ofInt 16 x) (BitVec.ofInt 16 y) := by
  cases function with
  | zero => rfl
  | one => rfl
  | minusOne => rfl
  | x => rfl
  | y => rfl
  | notX => exact Word.ofInt_lnot x
  | notY => exact Word.ofInt_lnot y
  | negX => exact BitVec.ofInt_neg
  | negY => exact BitVec.ofInt_neg
  | xPlusOne => exact BitVec.ofInt_add x 1
  | yPlusOne => exact BitVec.ofInt_add y 1
  | xMinusOne => exact Word.ofInt_sub x 1
  | yMinusOne => exact Word.ofInt_sub y 1
  | xPlusY => exact BitVec.ofInt_add x y
  | xMinusY => exact Word.ofInt_sub x y
  | yMinusX => exact Word.ofInt_sub y x
  | xAndY => exact Word.ofInt_land x y
  | xOrY => exact Word.ofInt_lor x y

end AluFunction

/-! ## Results and their signs -/

/-- The condition that is met by results which compare with zero in this way. -/
def Jump.on : Ordering → Jump
  | .lt => ⟨true, false, false⟩
  | .eq => ⟨false, true, false⟩
  | .gt => ⟨false, false, true⟩

theorem Jump.isTaken_on_iff {order : Ordering} {out : Word} :
    (on order).isTaken (out == 0) out.msb = true ↔ compare out.toInt 0 = order := by
  rw [isTaken_iff]
  cases order with
  | lt => simp [on, compare_lt_iff_lt]
  | eq => simp [on]
  | gt => simp [on, compare_gt_iff_gt]

namespace Alu

/-- The result of a setting with a name is the word of the named function, for any integers
that the operands are words of. -/
theorem result_flags_ofInt (x y : Int) (function : AluFunction) :
    result (BitVec.ofInt 16 x) (BitVec.ofInt 16 y) function.flags =
      BitVec.ofInt 16 (function.integer x y) := by
  rw [result_flags, AluFunction.ofInt_integer]

/-- A setting with a name computes the named function of integers modulo `2 ^ 16`, on
signed and on unsigned numbers.  Under every setting the status bits say whether the
result is zero and whether it is negative as a signed number; a jump is taken exactly if
the result stands to zero in one of the relations whose bits are set; and of the three
conditions with one bit, exactly one is met. -/
theorem computes_names_and_compares_with_zero (x y : Word) :
    (∀ function : AluFunction,
      (compute x y function.flags).out.toInt =
          (function.integer x.toInt y.toInt).bmod (2 ^ 16) ∧
        ((compute x y function.flags).out.toNat : Int) =
          function.integer x.toNat y.toNat % 2 ^ 16) ∧
    ∀ flags : AluFlags,
      let output := compute x y flags
      (output.zr = true ↔ output.out = 0) ∧
      (output.ng = true ↔ output.out.toInt < 0) ∧
      (∀ jump : Jump, jump.isTaken output.zr output.ng = true ↔
        (jump.lt = true ∧ output.out.toInt < 0) ∨ (jump.eq = true ∧ output.out.toInt = 0) ∨
          (jump.gt = true ∧ 0 < output.out.toInt)) ∧
      ∃! order : Ordering, (Jump.on order).isTaken output.zr output.ng = true := by
  constructor
  · intro function
    have signed := result_flags_ofInt x.toInt y.toInt function
    have unsigned := result_flags_ofInt x.toNat y.toNat function
    rw [BitVec.ofInt_toInt, BitVec.ofInt_toInt] at signed
    rw [Word.ofInt_toNat, Word.ofInt_toNat] at unsigned
    constructor
    · rw [compute, signed, BitVec.toInt_ofInt]
    · rw [compute, unsigned, BitVec.toNat_ofInt]
      exact Int.toNat_of_nonneg (Int.emod_nonneg _ (by decide))
  · intro flags output
    have exactly_one : ∃! order, (Jump.on order).isTaken output.zr output.ng = true :=
      ⟨compare output.out.toInt 0, Jump.isTaken_on_iff.2 rfl,
        fun order taken => (Jump.isTaken_on_iff.1 taken).symm⟩
    exact ⟨beq_iff_eq, Word.msb_eq_true_iff, fun jump => Jump.isTaken_iff, exactly_one⟩

end Alu

end HackComputer
