import HackComputer.Proofs.Instruction.Code

/-!
# The unused bits of a word

Bits 13 and 14 of a compute instruction mean nothing, and nothing else is lost in
decoding: words have the same instruction if and only if they differ in these bits
at most.
-/

namespace HackComputer

/-- Wherever the words differ, it is in an unused bit: bit 13 or 14 of a word with
bit 15 set. -/
def Word.SameUsed (first second : Word) : Prop :=
  ∀ index, first.getLsbD index ≠ second.getLsbD index →
    (index = 13 ∨ index = 14) ∧ first.getLsbD 15 = true

/-! ## Fields and their bits -/

theorem AluFlags.toField_ofField : ∀ field, (ofField field).toField = field := by
  decide

theorem Dest.toField_ofField : ∀ field, (ofField field).toField = field := by
  decide

theorem Jump.toField_ofField : ∀ field, (ofField field).toField = field := by
  decide

namespace Word

variable {first second : Word} {start length index : Nat}

theorem getLsbD_low15 (word : Word) (index : Nat) :
    word.low15.getLsbD index = (decide (index < 15) && word.getLsbD index) := by
  rw [low15, BitVec.getLsbD_setWidth, BitVec.getLsbD_setWidth]
  by_cases inside : index < 15
  · rw [decide_eq_true (Nat.lt_succ_of_lt inside), Bool.true_and]
  · rw [decide_eq_false inside, Bool.false_and, Bool.and_false]

theorem extractLsb'_congr
    (same : ∀ index, start ≤ index → index < start + length →
      first.getLsbD index = second.getLsbD index) :
    first.extractLsb' start length = second.extractLsb' start length := by
  apply BitVec.eq_of_getLsbD_eq
  intro offset inside
  rw [BitVec.getLsbD_extractLsb', BitVec.getLsbD_extractLsb',
    same (start + offset) (Nat.le_add_right _ _) (Nat.add_lt_add_left inside _)]

theorem getLsbD_eq_of_extractLsb'_eq
    (same : first.extractLsb' start length = second.extractLsb' start length)
    (from_start : start ≤ index) (before_end : index < start + length) :
    first.getLsbD index = second.getLsbD index := by
  obtain ⟨offset, rfl⟩ := Nat.exists_eq_add_of_le from_start
  have inside : offset < length := Nat.lt_of_add_lt_add_left before_end
  have bit_eq := congrArg (·.getLsbD offset) same
  simpa only [BitVec.getLsbD_extractLsb', inside, decide_true, Bool.true_and] using bit_eq

theorem SameUsed.refl (word : Word) : word.SameUsed word :=
  fun _ differ => absurd rfl differ

theorem SameUsed.getLsbD_eq (same : first.SameUsed second)
    (used : index < 13 ∨ index = 15 ∨ first.getLsbD 15 = false) :
    first.getLsbD index = second.getLsbD index := by
  apply Decidable.byContradiction
  intro differ
  obtain ⟨unused, compute⟩ := same index differ
  rcases used with below | is_kind | address
  · omega
  · omega
  · rw [compute] at address
    contradiction

end Word

namespace Instruction

variable {first second : Word}

theorem decode_eq_of_sameUsed (same : first.SameUsed second) : decode first = decode second := by
  cases kind : first.getLsbD 15 with
  | false =>
      have word_eq : first = second :=
        BitVec.eq_of_getLsbD_eq fun index _ => same.getLsbD_eq (.inr (.inr kind))
      rw [word_eq]
  | true =>
      have kind_eq : first.getLsbD 15 = second.getLsbD 15 := same.getLsbD_eq (.inr (.inl rfl))
      have source_eq : first.getLsbD 12 = second.getLsbD 12 := same.getLsbD_eq (.inl (by decide))
      have field_eq (start length : Nat) (used : start + length ≤ 13) :
          first.extractLsb' start length = second.extractLsb' start length :=
        Word.extractLsb'_congr fun index _ inside =>
          same.getLsbD_eq (.inl (Nat.lt_of_lt_of_le inside used))
      rw [decode, decode, ← kind_eq, source_eq, field_eq 6 6 (by decide),
        field_eq 3 3 (by decide), field_eq 0 3 (by decide)]
      simp only [kind, if_true]

theorem isAddress_decode (word : Word) : (decode word).isAddress = !word.getLsbD 15 := by
  rw [decode]
  cases word.getLsbD 15 <;> rfl

/-- A word without bit 15 is lost in nothing. -/
theorem eq_of_decode_eq_of_address (same : decode first = decode second)
    (kind : first.getLsbD 15 = false) (kind' : second.getLsbD 15 = false) : first = second := by
  rw [decode, decode, kind, kind'] at same
  have literal_eq : first.low15 = second.low15 := Instruction.address.inj same
  apply BitVec.eq_of_getLsbD_eq
  intro index inside
  by_cases is_kind : index = 15
  · rw [is_kind, kind, kind']
  · have bit_eq := congrArg (·.getLsbD index) literal_eq
    have below : index < 15 := by omega
    simpa only [Word.getLsbD_low15, below, decide_true, Bool.true_and] using bit_eq

/-- Every bit of a compute instruction below its unused bits is in a field. -/
theorem getLsbD_eq_of_decode_eq_of_compute (same : decode first = decode second)
    (kind : first.getLsbD 15 = true) (kind' : second.getLsbD 15 = true) {index : Nat}
    (used : index < 13) : first.getLsbD index = second.getLsbD index := by
  rw [decode, decode, if_pos kind, if_pos kind', Instruction.compute.injEq, Compute.mk.injEq]
    at same
  obtain ⟨source_eq, alu_eq, dest_eq, jump_eq⟩ := same
  have alu_field := congrArg AluFlags.toField alu_eq
  have dest_field := congrArg Dest.toField dest_eq
  have jump_field := congrArg Jump.toField jump_eq
  rw [AluFlags.toField_ofField, AluFlags.toField_ofField] at alu_field
  rw [Dest.toField_ofField, Dest.toField_ofField] at dest_field
  rw [Jump.toField_ofField, Jump.toField_ofField] at jump_field
  -- The fields cover the bits below the unused ones without a gap.
  rcases (by omega : index < 3 ∨ 3 ≤ index ∧ index < 6 ∨ 6 ≤ index ∧ index < 12 ∨ index = 12)
    with in_jump | ⟨after_jump, in_dest⟩ | ⟨after_dest, in_alu⟩ | rfl
  · exact Word.getLsbD_eq_of_extractLsb'_eq jump_field (Nat.zero_le _) in_jump
  · exact Word.getLsbD_eq_of_extractLsb'_eq dest_field after_jump in_dest
  · exact Word.getLsbD_eq_of_extractLsb'_eq alu_field after_dest in_alu
  · cases bit : first.getLsbD 12 <;> cases bit' : second.getLsbD 12 <;>
      first | rfl | (rw [bit, bit'] at source_eq; contradiction)

theorem sameUsed_of_decode_eq (same : decode first = decode second) : first.SameUsed second := by
  intro index differ
  have kind_eq : first.getLsbD 15 = second.getLsbD 15 := by
    have isAddress_eq := congrArg isAddress same
    rw [isAddress_decode, isAddress_decode] at isAddress_eq
    exact Bool.not_inj isAddress_eq
  cases kind : first.getLsbD 15 with
  | false =>
      have word_eq := eq_of_decode_eq_of_address same kind (kind_eq ▸ kind)
      rw [word_eq] at differ
      contradiction
  | true =>
      refine ⟨?_, rfl⟩
      have not_field : ¬index < 13 := fun used =>
        differ (getLsbD_eq_of_decode_eq_of_compute same kind (kind_eq ▸ kind) used)
      have not_kind : index ≠ 15 := by
        rintro rfl
        exact differ kind_eq
      have inside : ¬16 ≤ index := fun outside =>
        differ (by rw [BitVec.getLsbD_of_ge _ _ outside, BitVec.getLsbD_of_ge _ _ outside])
      omega

/-- The unused bits are all that decoding loses. -/
theorem decode_eq_iff : decode first = decode second ↔ first.SameUsed second :=
  ⟨sameUsed_of_decode_eq, decode_eq_of_sameUsed⟩

theorem fitsWord_decode (word : Word) : (decode word).FitsWord := by
  rw [decode]
  split
  · trivial
  · exact Nat.le_of_lt_succ word.toNat_low15_lt

/-- Encoding a decoded word sets its unused bits, and changes no other. -/
theorem sameUsed_encode_decode (word : Word) : word.SameUsed (encode (decode word)) :=
  decode_eq_iff.1 (decode_encode_iff.2 (fitsWord_decode word)).symm

end Instruction

end HackComputer
