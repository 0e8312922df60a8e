import HackComputer.Memory.Screen
import Mathlib.Algebra.Order.Floor.Div

/-!
# Blocks of pixels

A picture cuts columns and rows into blocks of one length.  The length is the least for
which the blocks are enough, and the last blocks may be cut off or empty.  Each number
below the limit lies in the block that division by the length gives, and in no other.
-/

namespace HackComputer.Screen

variable {total count length limit index number : Nat}

theorem mem_block_iff :
    number ∈ block length limit index ↔
      index * length ≤ number ∧ number < (index + 1) * length ∧ number < limit := by
  rw [block, List.mem_range'_1]
  omega

/-- A number lies in the block of its quotient only. -/
theorem mem_block_iff_eq_div (positive : 0 < length) (below : number < limit) :
    number ∈ block length limit index ↔ index = number / length := by
  rw [mem_block_iff, @eq_comm _ index, Nat.div_eq_iff positive, Nat.add_mul]
  omega

/-- The length of a block is the least for which the blocks cover everything. -/
theorem blockSize_le_iff (positive : 0 < count) :
    blockSize total count ≤ length ↔ total ≤ count * length := by
  rw [blockSize, ← Nat.ceilDiv_eq_add_pred_div]
  exact ceilDiv_le_iff_le_mul positive

theorem blockSize_pos (total_pos : 0 < total) (count_pos : 0 < count) :
    0 < blockSize total count := by
  rw [Nat.pos_iff_ne_zero]
  intro zero
  have covered := (blockSize_le_iff count_pos).1 (Nat.le_of_eq zero)
  omega

theorem blockSize_le_total (positive : 0 < count) : blockSize total count ≤ total :=
  (blockSize_le_iff positive).2 (Nat.le_mul_of_pos_left total positive)

/-- There is a block for every number. -/
theorem div_blockSize_lt (positive : 0 < count) (below : number < total) :
    number / blockSize total count < count := by
  have size_pos := blockSize_pos (Nat.zero_lt_of_lt below) positive
  have covered := (blockSize_le_iff positive).1 (Nat.le_refl (blockSize total count))
  rw [Nat.div_lt_iff_lt_mul size_pos]
  exact Nat.lt_of_lt_of_le below covered

/-- As many blocks as there are numbers have one each. -/
theorem blockSize_self (positive : 0 < total) : blockSize total total = 1 := by
  have size_pos := blockSize_pos positive positive
  have size_le : blockSize total total ≤ 1 :=
    (blockSize_le_iff positive).2 (Nat.le_of_eq (Nat.mul_one total).symm)
  exact Nat.le_antisymm size_le size_pos

end HackComputer.Screen
