import HackComputer.Proofs.Memory.Contents
import HackComputer.Proofs.Memory.Program
import Mathlib.Algebra.Group.Nat.Defs

/-!
# Checked access

The operations of the machine take indices that carry their bounds, and words that
wrap.  Here the same is done with bare numbers: every bit, bit field and cell, every
difference, sum and shift is checked where it is used, and a check that fails ends
the whole operation.  The theorems say that no check fails: a checked operation
always gives the result of the operation without checks.
-/

namespace HackComputer

/-- Why a checked operation ends without a result. -/
inductive Violation where
  /-- A bit, a bit field or a cell that does not exist. -/
  | outOfRange (cause : OutOfRange)
  /-- A sum, a difference, a product, a quotient or a shift without a value in its width. -/
  | overflow
  deriving DecidableEq, Repr

/-- A result that is there if all checks on the way to it hold. -/
abbrev Checked (Result : Type) :=
  Except Violation Result

namespace Checked

@[simp]
theorem ok_bind {First Second : Type} (first : First) (second : First → Checked Second) :
    ((.ok first : Checked First) >>= second) = second first :=
  rfl

@[simp]
theorem pure_eq_ok {Result : Type} (result : Result) :
    (pure result : Checked Result) = .ok result :=
  rfl

/-! ## Numbers -/

/-- The sum of two numbers of 64 bits. -/
def sum (x y : Nat) : Checked Nat :=
  if x + y < 2 ^ 64 then .ok (x + y) else .error .overflow

/-- The difference of two numbers that are not negative. -/
def difference (x y : Nat) : Checked Nat :=
  if y ≤ x then .ok (x - y) else .error .overflow

/-- The difference of two words without a sign. -/
def wordDifference (x y : Word) : Checked Word :=
  if y.toNat ≤ x.toNat then .ok (x - y) else .error .overflow

/-- A word shifted up by less than its width. -/
def shiftLeft (word : Word) (amount : Nat) : Checked Word :=
  if amount < 16 then .ok (word <<< amount) else .error .overflow

/-- A word shifted down by less than its width. -/
def shiftRight (word : Word) (amount : Nat) : Checked Word :=
  if amount < 16 then .ok (word >>> amount) else .error .overflow

/-! ## Bits of a word -/

/-- Bit `index` of a word. -/
def bit (word : Word) (index : Nat) : Checked Bool :=
  if index < 16 then do return (← shiftRight word index) &&& 1 == 1
  else .error (.outOfRange .bit)

/-- As many ones as `width`, in the low bits. -/
def ones (width : Nat) : Checked Word :=
  if width = 16 then .ok 0xFFFF else do wordDifference (← shiftLeft 1 width) 1

/-- The bits from `hi` down to `lo`: the word is moved down and cut off by a mask of
as many ones. -/
def slice (word : Word) (hi lo : Nat) : Checked Word :=
  if hi < 16 ∧ lo ≤ hi then do
    let mask ← ones (← sum (← difference hi lo) 1)
    return (← shiftRight word lo) &&& mask
  else .error (.outOfRange .slice)

variable (word : Word)

/-- Only the index of a bit is in question. -/
theorem bit_eq (index : Nat) : bit word index = (word.bit? index).mapError .outOfRange := by
  have one : BitVec.toNat (1 : Word) = 1 := rfl
  rw [bit, Word.bit?]
  split
  · rename_i inside
    have found : (word >>> index &&& 1 == 1) = word.getLsbD index := by
      rw [Bool.eq_iff_iff, beq_iff_eq, ← BitVec.toNat_inj, BitVec.toNat_and,
        BitVec.toNat_ushiftRight, one, Nat.and_one_is_mod, BitVec.getLsbD,
        Nat.testBit_eq_decide_div_mod_eq, Nat.shiftRight_eq_div_pow, decide_eq_true_iff]
    rw [shiftRight, if_pos inside, ok_bind, pure_eq_ok, found]
    rfl
  · rfl

/-- Fewer than sixteen ones are a power of two less one. -/
theorem ones_eq {width : Nat} (narrow : width ≤ 16) :
    ∃ mask, ones width = .ok mask ∧ mask.toNat = 2 ^ width - 1 := by
  rw [ones]
  split
  · rename_i full
    subst full
    exact ⟨0xFFFF, rfl, rfl⟩
  · rename_i notFull
    have small : width < 16 := Nat.lt_of_le_of_ne narrow notFull
    have one : BitVec.toNat (1 : Word) = 1 := rfl
    have power : BitVec.toNat ((1 : Word) <<< width) = 2 ^ width := by
      rw [BitVec.toNat_shiftLeft, Nat.shiftLeft_eq, one, Nat.one_mul,
        Nat.mod_eq_of_lt (Nat.pow_lt_pow_right (by decide) small)]
    have ordered : BitVec.toNat (1 : Word) ≤ BitVec.toNat ((1 : Word) <<< width) := by
      rw [power, one]
      exact Nat.one_le_two_pow
    refine ⟨(1 : Word) <<< width - 1, ?_, ?_⟩
    · rw [shiftLeft, if_pos small, ok_bind, wordDifference, if_pos ordered]
    · rw [BitVec.toNat_sub_of_le ordered, power, one]

/-- Moving down and cutting off extracts a bit field. -/
theorem shiftRight_and_ones {hi lo : Nat} (narrow : hi - lo + 1 ≤ 16) {mask : Word}
    (toNat_mask : mask.toNat = 2 ^ (hi - lo + 1) - 1) :
    word >>> lo &&& mask = (word.extractLsb hi lo).setWidth 16 := by
  have bound : (word.extractLsb hi lo).toNat < 2 ^ 16 :=
    Nat.lt_of_lt_of_le (word.extractLsb hi lo).isLt (Nat.pow_le_pow_right (by decide) narrow)
  apply BitVec.eq_of_toNat_eq
  rw [BitVec.toNat_and, BitVec.toNat_ushiftRight, toNat_mask, Nat.and_two_pow_sub_one_eq_mod,
    BitVec.toNat_setWidth, Nat.mod_eq_of_lt bound, BitVec.extractLsb_toNat]

/-- Only the ends of a bit field are in question. -/
theorem slice_eq (hi lo : Nat) : slice word hi lo = (word.slice? hi lo).mapError .outOfRange := by
  rw [slice, Word.slice?]
  split
  · rename_i inside
    obtain ⟨inside, ordered⟩ := inside
    have narrow : hi - lo + 1 ≤ 16 := by omega
    have counted : hi - lo + 1 < 2 ^ 64 := Nat.lt_of_le_of_lt narrow (by decide)
    have moved : lo < 16 := Nat.lt_of_le_of_lt ordered inside
    obtain ⟨mask, masked, toNat_mask⟩ := ones_eq narrow
    rw [difference, if_pos ordered, ok_bind, sum, if_pos counted, ok_bind, masked, ok_bind,
      shiftRight, if_pos moved, ok_bind, pure_eq_ok, shiftRight_and_ones word narrow toNat_mask]
    rfl
  · rfl

/-- An instruction, taken apart bit by bit. -/
def decode (word : Word) : Checked Instruction := do
  if ← bit word 15 then
    return .compute
      { ySource := if ← bit word 12 then .memory else .register
        alu := .ofField ((← slice word 11 6).setWidth 6)
        dest := .ofField ((← slice word 5 3).setWidth 3)
        jump := .ofField ((← slice word 2 0).setWidth 3) }
  else return .address (← slice word 14 0)

theorem slice_literal : slice word 14 0 = .ok word.low15 := by
  have short : word.toNat % 2 ^ 15 < 2 ^ 16 := Nat.lt_trans (Nat.mod_lt _ (by decide)) (by decide)
  have literal : (word.extractLsb 14 0).setWidth 16 = word.low15 := by
    apply BitVec.eq_of_toNat_eq
    rw [BitVec.toNat_setWidth, BitVec.extractLsb_toNat, Nat.shiftRight_zero, Word.toNat_low15]
    exact Nat.mod_eq_of_lt short
  rw [← literal]
  exact slice_eq word 14 0

/-- A bit field is found in the low bits of its slice. -/
theorem slice_field {hi lo : Nat} (inside : hi < 16 ∧ lo ≤ hi) :
    ∃ field, slice word hi lo = .ok field ∧
      field.setWidth (hi - lo + 1) = word.extractLsb hi lo := by
  have narrow : hi - lo + 1 ≤ 16 := by omega
  refine ⟨(word.extractLsb hi lo).setWidth 16, ?_, ?_⟩
  · rw [slice_eq, Word.slice?, if_pos inside]
    rfl
  · rw [BitVec.setWidth_setWidth_of_le _ narrow, BitVec.setWidth_eq]

theorem decode_eq : decode word = .ok (Instruction.decode word) := by
  have bit15 : bit word 15 = .ok (word.getLsbD 15) := bit_eq word 15
  have bit12 : bit word 12 = .ok (word.getLsbD 12) := bit_eq word 12
  obtain ⟨alu, sliced_alu, alu_eq⟩ := slice_field word (show 11 < 16 ∧ 6 ≤ 11 by decide)
  obtain ⟨dest, sliced_dest, dest_eq⟩ := slice_field word (show 5 < 16 ∧ 3 ≤ 5 by decide)
  obtain ⟨jump, sliced_jump, jump_eq⟩ := slice_field word (show 2 < 16 ∧ 0 ≤ 2 by decide)
  simp only [decode, bit15, bit12, sliced_alu, sliced_dest, sliced_jump, slice_literal, ok_bind,
    pure_eq_ok]
  rw [Instruction.decode]
  split
  · rw [alu_eq, dest_eq, jump_eq]
    rfl
  · rfl

/-! ## Data memory and program memory -/

/-- The range of a data address, by the leading bits of fifteen. -/
def region (address : Word) : Checked Region :=
  let low := address &&& 0x7FFF
  if low >>> 13 = 0 ∨ low >>> 13 = 1 then return .ram (low.setWidth 64)
  else if low >>> 13 = 2 then do return .screen ((← wordDifference low 0x4000).setWidth 64)
  else if low = 0x6000 then return .keyboard
  else return .unmapped low

theorem and_mask (address : Word) : address &&& 0x7FFF = address.low15 := by
  apply BitVec.eq_of_toNat_eq
  rw [Word.toNat_low15]
  exact Nat.and_two_pow_sub_one_eq_mod _ 15

theorem leading_eq_iff {count : Nat} (small : count < 8) :
    word >>> 13 = BitVec.ofNat 16 count ↔ word.toNat / 0x2000 = count := by
  rw [← BitVec.toNat_inj, BitVec.toNat_ushiftRight, Nat.shiftRight_eq_div_pow, BitVec.toNat_ofNat,
    Nat.mod_eq_of_lt (Nat.lt_trans small (by decide))]

/-- The leading bits tell the ranges apart, and the offset of a screen address is
not negative. -/
theorem region_eq (address : Word) : region address = .ok (Region.decode address) := by
  have lead0 : address.low15 >>> 13 = 0 ↔ address.low15.toNat / 0x2000 = 0 :=
    leading_eq_iff _ (by decide)
  have lead1 : address.low15 >>> 13 = 1 ↔ address.low15.toNat / 0x2000 = 1 :=
    leading_eq_iff _ (by decide)
  have lead2 : address.low15 >>> 13 = 2 ↔ address.low15.toNat / 0x2000 = 2 :=
    leading_eq_iff _ (by decide)
  have inRam : address.low15 >>> 13 = 0 ∨ address.low15 >>> 13 = 1 ↔
      address.low15.toNat < 0x4000 := by
    rw [lead0, lead1]
    omega
  have inScreen : address.low15 >>> 13 = 2 ↔
      0x4000 ≤ address.low15.toNat ∧ address.low15.toNat < 0x6000 := by
    rw [lead2]
    omega
  simp only [region, and_mask, Region.decode, inRam, inScreen]
  cases found : Location.decode address with
  | ram index =>
      have low_eq : address.low15.toNat = index := Location.decode_eq_ram_iff.1 found
      have inside : address.low15.toNat < 0x4000 := low_eq ▸ index.isLt
      rw [if_pos inside, ← BitVec.ofNat_toNat, low_eq]
      rfl
  | screen offset =>
      have low_eq : address.low15.toNat = 0x4000 + offset := Location.decode_eq_screen_iff.1 found
      have inside : (offset : Nat) < 0x2000 := offset.isLt
      have ordered : BitVec.toNat (0x4000 : Word) ≤ address.low15.toNat := by
        change 0x4000 ≤ _
        omega
      rw [if_neg (by omega), if_pos (by omega), wordDifference, if_pos ordered, ok_bind,
        ← BitVec.ofNat_toNat, BitVec.toNat_sub_of_le ordered, low_eq]
      change Except.ok (Region.screen (.ofNat 64 (0x4000 + offset - 0x4000))) = _
      rw [Nat.add_sub_cancel_left]
      rfl
  | keyboard =>
      have low_eq : address.low15.toNat = 0x6000 := Location.decode_eq_keyboard_iff.1 found
      have keyboard : address.low15 = 0x6000 := BitVec.eq_of_toNat_eq low_eq
      rw [if_neg (by omega), if_neg (by omega), if_pos keyboard]
      rfl
  | unmapped low =>
      obtain ⟨above, low_eq⟩ := Location.decode_eq_unmapped_iff.1 found
      have above : 0x6000 < address.low15.toNat := above
      have other : address.low15 ≠ 0x6000 := by
        intro keyboard
        rw [keyboard] at above
        exact absurd above (by decide)
      rw [if_neg (by omega), if_neg (by omega), if_neg other, low_eq]
      rfl

/-- The word in cell `index` of a block. -/
def cell {size : Nat} (ram : Ram size) (index : Nat) : Checked Word :=
  (ram.read? index).mapError .outOfRange

/-- A block after a word is stored in cell `index`. -/
def setCell {size : Nat} (ram : Ram size) (index : Nat) (value : Word) : Checked (Ram size) :=
  (ram.write? index value).mapError .outOfRange

/-- A block after words are stored one after the other, from cell `index` on. -/
def copy {size : Nat} (ram : Ram size) : Nat → List Word → Checked (Ram size)
  | _, [] => return ram
  | index, word :: rest => do copy (← setCell ram index word) (index + 1) rest

/-- The instruction at a value of the program counter. -/
def fetch (rom : Rom) (pc : Word) : Checked Word :=
  cell (⟨rom.words⟩ : Ram romSize) (pc &&& 0x7FFF).toNat

section Storage

variable {size : Nat} (ram : Ram size) (index : Fin size)

theorem cell_eq : cell ram index = .ok (ram.read index) := by
  rw [cell, Ram.read?, dif_pos index.isLt]
  rfl

theorem setCell_eq (value : Word) : setCell ram index value = .ok (ram.write index value) := by
  rw [setCell, Ram.write?, dif_pos index.isLt]
  rfl

theorem toNat_ofNat_index (addressable : size ≤ 2 ^ 64) :
    BitVec.toNat (.ofNat 64 index : Size) = index := by
  rw [BitVec.toNat_ofNat, Nat.mod_eq_of_lt (Nat.lt_of_lt_of_le index.isLt addressable)]

end Storage

theorem fetch_eq (rom : Rom) (pc : Word) : fetch rom pc = .ok (rom.fetch pc) := by
  rw [fetch, and_mask]
  exact cell_eq (⟨rom.words⟩ : Ram romSize) ⟨pc.low15.toNat, pc.toNat_low15_lt⟩

/-- With `done` in the first cells and zeros after it, the words that are stored
next follow it. -/
theorem copy_spec {size : Nat} (words : List Word) {done : List Word} {ram : Ram size}
    (holds : ram.cells.toList = done ++ List.replicate (size - done.length) 0)
    (fits : done.length + words.length ≤ size) :
    ∃ after, copy ram done.length words = .ok after ∧
      after.cells.toList = done ++ words ++ List.replicate (size - (done ++ words).length) 0 := by
  induction words generalizing done ram with
  | nil => exact ⟨ram, rfl, by rw [List.append_nil, holds]⟩
  | cons word rest inductionHypothesis =>
      rw [List.length_cons] at fits
      have inside : done.length < size := by omega
      have zeros : size - done.length = size - (done ++ [word]).length + 1 := by
        rw [List.length_append, List.length_singleton]
        omega
      have written : (ram.write ⟨done.length, inside⟩ word).cells.toList =
          done ++ [word] ++ List.replicate (size - (done ++ [word]).length) 0 := by
        rw [Ram.write, Vector.toList_set, holds, zeros, List.set_append_right _ _ (Nat.le_refl _),
          Nat.sub_self, List.replicate_succ, List.set_cons_zero, List.append_assoc,
          List.singleton_append]
      obtain ⟨after, copied, after_eq⟩ := inductionHypothesis written (by simp; omega)
      rw [List.length_append, List.length_singleton] at copied
      refine ⟨after, ?_, ?_⟩
      · rw [copy, setCell_eq ram ⟨done.length, inside⟩ word, ok_bind, copied]
      · rw [after_eq, List.append_assoc done, List.singleton_append]

/-- A program is copied to the start of clear program memory. -/
theorem copy_program {program : List Word} (fits : program.length ≤ romSize) :
    copy .zero 0 program = .ok ⟨(Rom.holding program fits).words⟩ := by
  have clear : (Ram.zero : Ram romSize).cells.toList =
      [] ++ List.replicate (romSize - ([] : List Word).length) 0 := by
    rw [Ram.zero, Vector.toList_replicate]
    rfl
  obtain ⟨⟨cells⟩, copied, cells_eq⟩ :=
    copy_spec program clear (by rwa [List.length_nil, Nat.zero_add])
  have holding : cells = (Rom.holding program fits).words := by
    rw [← Vector.toList_inj, cells_eq, List.nil_append]
    rfl
  rw [← holding]
  exact copied

end Checked

end HackComputer
