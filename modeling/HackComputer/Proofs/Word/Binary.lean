import HackComputer.Word.Binary
import Mathlib.Data.Nat.Digits.Lemmas
import Mathlib.Tactic.IntervalCases

/-!
# Binary text and the value of a word

Reading accepts a text exactly if it is what writing produces
(`ofBinaryChars_eq_ok_iff`), and the word read is the number that the digits
stand for (`toNat_ofBinaryDigits`).  The bits of a word that is read are the
digits from the last one on, which is all that both facts need to know about the
shifting that reads them.  What is written is that number in base two
(`binaryDigits_eq_zeros_append_toDigits`).
-/

namespace HackComputer.Word

/-- The number that a text of binary digits stands for, the most significant
digit first. -/
def binaryValue (digits : List Char) : Nat :=
  Nat.ofDigits 2 (digits.reverse.map fun char => (char == '1').toNat)

theorem binaryValue_append_singleton (digits : List Char) (char : Char) :
    binaryValue (digits ++ [char]) = (char == '1').toNat + 2 * binaryValue digits := by
  simp only [binaryValue, List.reverse_append, List.reverse_singleton, List.singleton_append,
    List.map_cons, Nat.ofDigits_cons]

theorem binaryValue_lt (digits : List Char) : binaryValue digits < 2 ^ digits.length := by
  have digit_lt : ∀ digit ∈ digits.reverse.map fun char => (char == '1').toNat, digit < 2 := by
    intro digit member
    obtain ⟨char, -, rfl⟩ := List.mem_map.1 member
    exact Bool.toNat_lt _
  simpa only [binaryValue, List.length_map, List.length_reverse] using
    Nat.ofDigits_lt_base_pow_length one_lt_two digit_lt

theorem ofBinaryDigits_append_singleton (digits : List Char) (char : Char) :
    ofBinaryDigits (digits ++ [char]) = (ofBinaryDigits digits).shiftConcat (char == '1') := by
  simp only [ofBinaryDigits, List.foldl_append, List.foldl_cons, List.foldl_nil]

/-- A word holds the last sixteen digits of the text that it is read from. -/
theorem toNat_ofBinaryDigits_eq_mod (digits : List Char) :
    (ofBinaryDigits digits).toNat = binaryValue digits % 2 ^ 16 := by
  induction digits using List.reverseRecOn with
  | nil => rfl
  | append_singleton digits char inductionHypothesis =>
      rw [ofBinaryDigits_append_singleton, binaryValue_append_singleton,
        BitVec.toNat_shiftConcat, inductionHypothesis, Nat.shiftLeft_eq]
      omega

theorem toNat_ofBinaryDigits {digits : List Char} (short : digits.length ≤ 16) :
    (ofBinaryDigits digits).toNat = binaryValue digits := by
  rw [toNat_ofBinaryDigits_eq_mod]
  exact Nat.mod_eq_of_lt
    ((binaryValue_lt digits).trans_le (Nat.pow_le_pow_right Nat.two_pos short))

theorem ofBinaryDigits_eq_of_toNat {digits : List Char} {word : Word} (short : digits.length ≤ 16)
    (value : word.toNat = binaryValue digits) : ofBinaryDigits digits = word := by
  apply BitVec.eq_of_toNat_eq
  rw [toNat_ofBinaryDigits short, value]

/-- The bits of a word are the digits that it is read from, the last one first. -/
theorem getLsbD_ofBinaryDigits (digits : List Char) (index : Nat) :
    (ofBinaryDigits digits).getLsbD index =
      (decide (index < 16) && digits.reverse[index]? == some '1') := by
  induction digits using List.reverseRecOn generalizing index with
  | nil => simp [ofBinaryDigits]
  | append_singleton digits char inductionHypothesis =>
      rw [ofBinaryDigits_append_singleton, BitVec.getLsbD_shiftConcat, List.reverse_append,
        List.reverse_singleton, List.singleton_append]
      cases index with
      | zero => simp
      | succ index =>
          rw [if_neg (Nat.succ_ne_zero index), Nat.add_sub_cancel, inductionHypothesis,
            List.getElem?_cons_succ, ← Bool.and_assoc, ← Bool.decide_and]
          congr 2
          exact propext ⟨And.left, fun small => ⟨small, Nat.lt_of_succ_lt small⟩⟩

/-! ## Digits of a word -/

theorem isBinaryDigit_iff {char : Char} : isBinaryDigit char = true ↔ char = '0' ∨ char = '1' := by
  simp [isBinaryDigit]

theorem isBinaryDigit_binaryDigit (bit : Bool) : isBinaryDigit (binaryDigit bit) = true := by
  cases bit <;> rfl

theorem binaryDigit_eq_self {char : Char} (digit : isBinaryDigit char = true) :
    binaryDigit (char == '1') = char := by
  rcases isBinaryDigit_iff.1 digit with rfl | rfl <;> rfl

theorem isBinaryDigit_of_mem_binaryDigits {word : Word} {char : Char}
    (member : char ∈ word.binaryDigits) : isBinaryDigit char = true := by
  obtain ⟨index, rfl⟩ := (List.mem_ofFn' _ _).1 member
  exact isBinaryDigit_binaryDigit _

theorem getElem?_binaryDigits (word : Word) {index : Nat} (small : index < 16) :
    word.binaryDigits[index]? = some (binaryDigit (word.getMsbD index)) := by
  rw [binaryDigits, List.getElem?_ofFn, dif_pos small]

/-- A word of sixteen digits shows them from its most significant bit on. -/
theorem getMsbD_ofBinaryDigits {digits : List Char} (full : digits.length = 16) {index : Nat}
    (small : index < 16) : (ofBinaryDigits digits).getMsbD index = (digits[index]? == some '1') := by
  have place : digits.reverse[15 - index]? = digits[index]? := by
    rw [List.getElem?_reverse (by omega), full]
    congr 1
    omega
  rw [BitVec.getMsbD_eq_getLsbD, getLsbD_ofBinaryDigits, place]
  simp only [small, decide_true, Bool.true_and, Nat.add_one_sub_one]
  rw [decide_eq_true (by omega), Bool.true_and]

theorem ofBinaryDigits_binaryDigits (word : Word) : ofBinaryDigits word.binaryDigits = word := by
  apply BitVec.eq_of_getMsbD_eq
  intro index small
  rw [getMsbD_ofBinaryDigits word.length_binaryDigits small, getElem?_binaryDigits word small]
  cases word.getMsbD index <;> rfl

theorem binaryDigits_ofBinaryDigits {digits : List Char} (full : digits.length = 16)
    (binary : ∀ char ∈ digits, isBinaryDigit char = true) :
    (ofBinaryDigits digits).binaryDigits = digits := by
  apply List.ext_getElem?
  intro index
  by_cases small : index < 16
  · have found : digits[index]? = some digits[index] := List.getElem?_eq_getElem (by omega)
    rw [getElem?_binaryDigits _ small, getMsbD_ofBinaryDigits full small, found,
      Option.some_beq_some, binaryDigit_eq_self (binary _ (List.getElem_mem _))]
  · rw [List.getElem?_eq_none (by rw [length_binaryDigits]; omega),
      List.getElem?_eq_none (by omega)]

theorem binaryValue_binaryDigits (word : Word) : binaryValue word.binaryDigits = word.toNat := by
  rw [← toNat_ofBinaryDigits word.length_binaryDigits.le, ofBinaryDigits_binaryDigits]

/-! ## Reading -/

theorem ofBinaryChars_of_length_ne {chars : List Char} (length_ne : chars.length ≠ 16) :
    ofBinaryChars chars = .error (.wrongLength chars.length) :=
  if_pos length_ne

theorem ofBinaryChars_of_invalidChar {good rest : List Char} {char : Char}
    (full : (good ++ char :: rest).length = 16)
    (binary : ∀ digit ∈ good, isBinaryDigit digit = true) (invalid : isBinaryDigit char = false) :
    ofBinaryChars (good ++ char :: rest) = .error (.invalidChar char) := by
  have skipped : good.find? (fun char => !isBinaryDigit char) = none := by
    rw [List.find?_eq_none]
    intro digit member
    rw [binary digit member]
    decide
  have found : (good ++ char :: rest).find? (fun char => !isBinaryDigit char) = some char := by
    rw [List.find?_append, skipped, Option.none_or, List.find?_cons_of_pos (by rw [invalid]; rfl)]
  rw [ofBinaryChars, if_neg (not_not_intro full), found]

theorem ofBinaryChars_of_binary {chars : List Char} (full : chars.length = 16)
    (binary : ∀ char ∈ chars, isBinaryDigit char = true) :
    ofBinaryChars chars = .ok (ofBinaryDigits chars) := by
  have none_found : chars.find? (fun char => !isBinaryDigit char) = none := by
    rw [List.find?_eq_none]
    intro char member
    rw [binary char member]
    decide
  rw [ofBinaryChars, if_neg (not_not_intro full), none_found]

theorem ofBinaryChars_binaryDigits (word : Word) : ofBinaryChars word.binaryDigits = .ok word := by
  rw [ofBinaryChars_of_binary word.length_binaryDigits
    fun _ member => isBinaryDigit_of_mem_binaryDigits member, ofBinaryDigits_binaryDigits]

/-- Reading accepts exactly what writing produces. -/
theorem ofBinaryChars_eq_ok_iff {chars : List Char} {word : Word} :
    ofBinaryChars chars = .ok word ↔ chars = word.binaryDigits := by
  constructor
  · intro read
    rw [ofBinaryChars] at read
    split at read
    · contradiction
    · rename_i full
      have full := not_not.1 full
      split at read
      · contradiction
      · rename_i none_found
        have binary : ∀ char ∈ chars, isBinaryDigit char = true := by
          simpa [List.find?_eq_none] using none_found
        rw [← Except.ok.inj read, binaryDigits_ofBinaryDigits full binary]
  · rintro rfl
    exact ofBinaryChars_binaryDigits word

theorem ofBinaryChars_eq_wrongLength_iff {chars : List Char} {count : Nat} :
    ofBinaryChars chars = .error (.wrongLength count) ↔
      chars.length ≠ 16 ∧ count = chars.length := by
  by_cases full : chars.length = 16
  · rw [ofBinaryChars, if_neg (not_not_intro full)]
    split <;> simp [full]
  · simp [ofBinaryChars_of_length_ne full, full, eq_comm]

/-- The character that is refused is the first one that is no binary digit. -/
theorem ofBinaryChars_eq_invalidChar_iff {chars : List Char} {char : Char} :
    ofBinaryChars chars = .error (.invalidChar char) ↔
      chars.length = 16 ∧ ∃ before after, chars = before ++ char :: after ∧
        (∀ digit ∈ before, digit = '0' ∨ digit = '1') ∧ ¬(char = '0' ∨ char = '1') := by
  constructor
  · intro refused
    rw [ofBinaryChars] at refused
    split at refused
    · cases refused
    · rename_i full
      split at refused
      · rename_i found
        cases refused
        obtain ⟨invalid, before, after, chars_eq, binary⟩ := List.find?_eq_some_iff_append.1 found
        refine ⟨not_not.1 full, before, after, chars_eq, fun digit member => ?_, ?_⟩
        · exact isBinaryDigit_iff.1 (by simpa using binary digit member)
        · rw [← isBinaryDigit_iff]
          simpa using invalid
      · cases refused
  · rintro ⟨full, before, after, rfl, binary, invalid⟩
    refine ofBinaryChars_of_invalidChar full (fun digit member => ?_) ?_
    · exact isBinaryDigit_iff.2 (binary digit member)
    · rw [← Bool.not_eq_true, isBinaryDigit_iff]
      exact invalid

/-! ## The number in base two -/

theorem isBinaryDigit_of_mem_toDigits {number : Nat} {char : Char}
    (member : char ∈ Nat.toDigits 2 number) : isBinaryDigit char = true := by
  induction number using Nat.strongRecOn with
  | ind number inductionHypothesis =>
      rcases Nat.lt_or_ge number 2 with small | large
      · rw [Nat.toDigits_of_lt_base small, List.mem_singleton] at member
        rw [member]
        interval_cases number <;> rfl
      · rw [Nat.toDigits_of_base_le one_lt_two large, List.mem_append, List.mem_singleton] at member
        rcases member with front | rfl
        · exact inductionHypothesis (number / 2) (by omega) front
        · rcases Nat.mod_two_eq_zero_or_one number with even | odd
          · rw [even]
            rfl
          · rw [odd]
            rfl

/-- The digits of a number in base two stand for it, also with zeros in front. -/
theorem binaryValue_zeros_append_toDigits (zeros number : Nat) :
    binaryValue (List.replicate zeros '0' ++ Nat.toDigits 2 number) = number := by
  have value_eq {digit : Nat} (small : digit < 2) : (digit.digitChar == '1').toNat = digit := by
    interval_cases digit <;> rfl
  have zeros_eq : binaryValue (List.replicate zeros '0') = 0 := by
    induction zeros with
    | zero => rfl
    | succ zeros inductionHypothesis =>
        rw [List.replicate_succ', binaryValue_append_singleton, inductionHypothesis]
        rfl
  induction number using Nat.strongRecOn with
  | ind number inductionHypothesis =>
      rcases Nat.lt_or_ge number 2 with small | large
      · rw [Nat.toDigits_of_lt_base small, binaryValue_append_singleton, zeros_eq, value_eq small]
        rfl
      · rw [Nat.toDigits_of_base_le one_lt_two large, ← List.append_assoc,
          binaryValue_append_singleton, inductionHypothesis (number / 2) (by omega),
          value_eq (Nat.mod_lt number two_pos)]
        omega

/-- A word shows its number in base two, with zeros in front up to sixteen digits. -/
theorem binaryDigits_eq_zeros_append_toDigits (word : Word) :
    word.binaryDigits =
      List.replicate (16 - (Nat.toDigits 2 word.toNat).length) '0' ++
        Nat.toDigits 2 word.toNat := by
  have short : (Nat.toDigits 2 word.toNat).length ≤ 16 :=
    (Nat.length_toDigits_le_iff one_lt_two (by decide)).2 word.isLt
  set padded := List.replicate (16 - (Nat.toDigits 2 word.toNat).length) '0' ++
    Nat.toDigits 2 word.toNat with padded_eq
  have full : padded.length = 16 := by
    rw [padded_eq, List.length_append, List.length_replicate]
    omega
  have binary : ∀ char ∈ padded, isBinaryDigit char = true := by
    intro char member
    rcases List.mem_append.1 member with zero | digit
    · rw [List.eq_of_mem_replicate zero]
      rfl
    · exact isBinaryDigit_of_mem_toDigits digit
  have word_eq : ofBinaryDigits padded = word :=
    ofBinaryDigits_eq_of_toNat full.le (binaryValue_zeros_append_toDigits _ _).symm
  rw [← binaryDigits_ofBinaryDigits full binary, word_eq]

/-! ## Texts -/

/-- A word is read from a text exactly if the text is what the word is shown as: its number
in base two, with zeros in front up to sixteen digits.  Every other text is refused: for
its number of characters if that is not sixteen, and else for its first character that is
no binary digit. -/
theorem ofBinary_inverts_toBinary (text : String) :
    (∀ word, ofBinary text = .ok word ↔ text = word.toBinary) ∧
    (∀ word : Word, word.toBinary.length = 16 ∧
      word.toBinary.toList =
        List.replicate (16 - (Nat.toDigits 2 word.toNat).length) '0' ++
          Nat.toDigits 2 word.toNat) ∧
    (∀ count, ofBinary text = .error (.wrongLength count) ↔
      text.length ≠ 16 ∧ count = text.length) ∧
    ∀ char, ofBinary text = .error (.invalidChar char) ↔
      text.length = 16 ∧ ∃ before after, text.toList = before ++ char :: after ∧
        (∀ digit ∈ before, digit = '0' ∨ digit = '1') ∧ ¬(char = '0' ∨ char = '1') := by
  refine ⟨fun word => ?_, fun word => ⟨?_, ?_⟩, fun count => ?_, fun char => ?_⟩
  · rw [ofBinary, ofBinaryChars_eq_ok_iff, ← toList_toBinary, String.toList_inj]
  · rw [← String.length_toList, toList_toBinary, length_binaryDigits]
  · rw [toList_toBinary, binaryDigits_eq_zeros_append_toDigits]
  · rw [ofBinary, ofBinaryChars_eq_wrongLength_iff, String.length_toList]
  · rw [ofBinary, ofBinaryChars_eq_invalidChar_iff, String.length_toList]

end HackComputer.Word
