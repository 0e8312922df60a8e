import HackComputer.Instruction.Code
import HackComputer.Proofs.Memory.Contents

/-!
# Instructions through their words

Each field of an encoded instruction stands where decoding looks for it.  Only a
literal of more than fifteen bits is not decoded again.
-/

namespace HackComputer.Instruction

/-- A word has room for the instruction: its literal, if it has one, fits in
fifteen bits. -/
def FitsWord : Instruction → Prop
  | .address literal => literal.toNat ≤ 0x7FFF
  | .compute _ => True

instance : DecidablePred FitsWord := fun
  | .address literal => inferInstanceAs (Decidable (literal.toNat ≤ 0x7FFF))
  | .compute _ => inferInstanceAs (Decidable True)

/-! ## The fields of a compute instruction -/

section Fields

variable (fields : Compute)

theorem getLsbD_encode_compute_kind : (encode (.compute fields)).getLsbD 15 = true := by
  simp only [encode, BitVec.getLsbD_append]
  rfl

theorem getLsbD_encode_compute_ySource :
    (encode (.compute fields)).getLsbD 12 = (fields.ySource == .memory) := by
  simp only [encode, BitVec.getLsbD_append]
  exact BitVec.getLsbD_ofBool _ _

theorem extractLsb'_encode_compute_alu :
    (encode (.compute fields)).extractLsb' 6 6 = fields.alu.toField := by
  rw [encode, BitVec.extractLsb'_append_eq_of_le (by decide),
    BitVec.extractLsb'_append_eq_of_le (by decide)]
  exact BitVec.extractLsb'_append_eq_right

theorem extractLsb'_encode_compute_dest :
    (encode (.compute fields)).extractLsb' 3 3 = fields.dest.toField := by
  rw [encode, BitVec.extractLsb'_append_eq_of_le (by decide)]
  exact BitVec.extractLsb'_append_eq_right

theorem extractLsb'_encode_compute_jump :
    (encode (.compute fields)).extractLsb' 0 3 = fields.jump.toField :=
  BitVec.extractLsb'_append_eq_right

theorem decode_encode_compute : decode (encode (.compute fields)) = .compute fields := by
  rw [decode, if_pos (getLsbD_encode_compute_kind fields), getLsbD_encode_compute_ySource,
    extractLsb'_encode_compute_alu, extractLsb'_encode_compute_dest,
    extractLsb'_encode_compute_jump, AluFlags.ofField_toField, Dest.ofField_toField,
    Jump.ofField_toField]
  cases fields with
  | mk ySource alu dest jump => cases ySource <;> rfl

end Fields

/-! ## Literals -/

/-- A word without bit 15 is its own literal. -/
theorem decode_eq_address {word : Word} (short : word.toNat < 0x8000) :
    decode word = .address word.low15 := by
  have unset : word.getLsbD 15 = false := by
    rw [← BitVec.testBit_toNat]
    exact Nat.testBit_lt_two_pow short
  rw [decode, if_neg (by rw [unset]; decide)]

theorem decode_encode_address (literal : Word) :
    decode (encode (.address literal)) = .address literal.low15 := by
  rw [encode, decode_eq_address literal.toNat_low15_lt, Word.low15_low15]

/-- Exactly the instructions that a word has room for are decoded from it again. -/
theorem decode_encode_iff {instruction : Instruction} :
    decode (encode instruction) = instruction ↔ instruction.FitsWord := by
  cases instruction with
  | compute fields => exact iff_of_true (decode_encode_compute fields) trivial
  | address literal =>
      rw [decode_encode_address, Instruction.address.injEq, Word.low15_eq_self_iff]
      exact Nat.lt_succ_iff

end HackComputer.Instruction
