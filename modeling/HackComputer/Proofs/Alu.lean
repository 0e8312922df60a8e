import HackComputer.Instruction
import Mathlib.Data.BitVec
import Mathlib.Tactic.Ring

/-!
# What the unit computes

The stages of the unit are additions, conjunctions and complements.  A
complement is the negative less one, so that each setting with a name comes down
to an identity of arithmetic modulo `2 ^ 16`.  The status bits tell the sign of
the result, and a jump condition is a set of signs.
-/

namespace HackComputer

theorem Word.not_eq (word : Word) : ~~~word = -word - 1 := by
  rw [BitVec.neg_eq_not_add]
  exact (add_sub_cancel_right (~~~word) 1).symm

theorem Word.and_not_zero (word : Word) : word &&& ~~~0 = word := by
  have ones : (~~~0 : Word) = BitVec.allOnes 16 := by decide
  rw [ones, BitVec.and_allOnes]

theorem Word.msb_eq_true_iff {word : Word} : word.msb = true ↔ word.toInt < 0 :=
  BitVec.msb_eq_toInt ▸ decide_eq_true_iff

theorem AluFunction.flags_of_ofFlags? {flags : AluFlags} {function : AluFunction}
    (found : ofFlags? flags = some function) : function.flags = flags := by
  have matched := List.find?_some found
  exact beq_iff_eq.1 matched

namespace Alu

/-- A setting with a name computes the function that it is named for. -/
theorem result_flags (x y : Word) (function : AluFunction) :
    result x y function.flags = function.apply x y := by
  cases function with
  | zero => rfl
  | one =>
      change ~~~(~~~0 + ~~~0 : Word) = 1
      decide
  | minusOne =>
      change (~~~0 + 0 : Word) = -1
      decide
  | x => exact Word.and_not_zero x
  | y =>
      change ~~~0 &&& y = y
      rw [BitVec.and_comm, Word.and_not_zero]
  | notX =>
      change ~~~(x &&& ~~~0) = ~~~x
      rw [Word.and_not_zero]
  | notY =>
      change ~~~(~~~0 &&& y) = ~~~y
      rw [BitVec.and_comm, Word.and_not_zero]
  | negX =>
      change ~~~(x + ~~~0) = -x
      rw [Word.not_eq, Word.not_eq]
      ring
  | negY =>
      change ~~~(~~~0 + y) = -y
      rw [Word.not_eq, Word.not_eq]
      ring
  | xPlusOne =>
      change ~~~(~~~x + ~~~0) = x + 1
      rw [Word.not_eq, Word.not_eq, Word.not_eq]
      ring
  | yPlusOne =>
      change ~~~(~~~0 + ~~~y) = y + 1
      rw [Word.not_eq, Word.not_eq, Word.not_eq]
      ring
  | xMinusOne =>
      change x + ~~~0 = x - 1
      rw [Word.not_eq]
      ring
  | yMinusOne =>
      change ~~~0 + y = y - 1
      rw [Word.not_eq]
      ring
  | xPlusY => rfl
  | xMinusY =>
      change ~~~(~~~x + y) = x - y
      rw [Word.not_eq, Word.not_eq]
      ring
  | yMinusX =>
      change ~~~(x + ~~~y) = y - x
      rw [Word.not_eq, Word.not_eq]
      ring
  | xAndY => rfl
  | xOrY =>
      change ~~~(~~~x &&& ~~~y) = x ||| y
      rw [BitVec.not_and, BitVec.not_not, BitVec.not_not]

end Alu

/-- An unconditional jump is taken whatever the result. -/
theorem Jump.isTaken_always (zr ng : Bool) : isTaken ⟨true, true, true⟩ zr ng = true := by
  cases zr <;> cases ng <;> rfl

/-- A jump is taken on the signs that its condition lists. -/
theorem Jump.isTaken_iff {jump : Jump} {out : Word} :
    jump.isTaken (out == 0) out.msb = true ↔
      (jump.lt = true ∧ out.toInt < 0) ∨ (jump.eq = true ∧ out.toInt = 0) ∨
        (jump.gt = true ∧ 0 < out.toInt) := by
  have zero_iff : (out == 0) = true ↔ out.toInt = 0 := by
    rw [beq_iff_eq, ← BitVec.toInt_inj]
    rfl
  have positive_iff : 0 < out.toInt ↔ ¬out.toInt < 0 ∧ ¬out.toInt = 0 := by omega
  rw [positive_iff, ← Word.msb_eq_true_iff, ← zero_iff, isTaken]
  simp only [Bool.or_eq_true, Bool.and_eq_true, Bool.not_eq_true', Bool.not_eq_true, and_assoc,
    or_assoc]

end HackComputer
