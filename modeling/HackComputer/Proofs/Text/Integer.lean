import HackComputer.Proofs.Text.Blank
import HackComputer.Text.Integer
import Mathlib.Algebra.Group.Nat.Defs

/-!
# What the text of an integer denotes

`DenotesNat` and `DenotesInt` say which texts denote an integer, apart from how they are
read: an optional sign and one or more ASCII decimal digits, among them any number of
leading zeros.  The readers accept exactly the texts that denote an integer in their range
(`readNat_eq_ok_iff`, `readInt_eq_ok_iff`), and printing an integer gives such a text.
-/

namespace HackComputer.Text

/-- The characters are one or more ASCII decimal digits that stand for `value`. -/
structure DigitsDenote (digits : List Char) (value : Nat) : Prop where
  nonempty : digits ≠ []
  decimal : ∀ char ∈ digits, char.isDigit = true
  value_eq : Nat.ofDigitChars 10 digits 0 = value

/-- The text is an optional plus sign and digits that stand for `value`. -/
inductive DenotesNat : List Char → Nat → Prop
  | plain {digits : List Char} {value : Nat} (denotes : DigitsDenote digits value) :
      DenotesNat digits value
  | plus {digits : List Char} {value : Nat} (denotes : DigitsDenote digits value) :
      DenotesNat ('+' :: digits) value

/-- The text is an optional sign and digits that stand for `value`. -/
inductive DenotesInt : List Char → Int → Prop
  | nonneg {chars : List Char} {value : Nat} (denotes : DenotesNat chars value) :
      DenotesInt chars value
  | minus {digits : List Char} {value : Nat} (denotes : DigitsDenote digits value) :
      DenotesInt ('-' :: digits) (-value)

section Reading

variable {limit value : Nat} {overflow : IntegerError} {digits chars : List Char}

/-! ## Digits -/

theorem isDigit_iff {char : Char} : char.isDigit = true ↔ '0' ≤ char ∧ char ≤ '9' := by
  rw [Char.isDigit, Bool.and_eq_true, decide_eq_true_eq, decide_eq_true_eq]
  rfl

theorem digitValue?_of_isDigit {char : Char} (decimal : char.isDigit = true) :
    digitValue? char = some (char.toNat - 48) :=
  if_pos (isDigit_iff.1 decimal)

theorem digitValue?_of_not_isDigit {char : Char} (other : ¬char.isDigit = true) :
    digitValue? char = none :=
  if_neg fun decimal => other (isDigit_iff.2 decimal)

/-- Further digits make a number no smaller. -/
theorem le_ofDigitChars (digits : List Char) (value : Nat) :
    value ≤ Nat.ofDigitChars 10 digits value := by
  induction digits generalizing value with
  | nil => exact Nat.le_refl value
  | cons char rest inductionHypothesis =>
      rw [Nat.ofDigitChars_cons]
      exact Nat.le_trans (by omega) (inductionHypothesis _)

/-- Since the number only grows, it stays within the limit on the way if it ends there. -/
theorem appendDigits_eq_ok_iff {result : Nat} (small : value ≤ limit) :
    appendDigits limit overflow value digits = .ok result ↔
      (∀ char ∈ digits, char.isDigit = true) ∧ Nat.ofDigitChars 10 digits value = result ∧
        result ≤ limit := by
  induction digits generalizing value with
  | nil =>
      rw [appendDigits, Except.ok.injEq, Nat.ofDigitChars_nil]
      constructor
      · rintro rfl
        exact ⟨fun _ member => absurd member List.not_mem_nil, rfl, small⟩
      · exact fun accepted => accepted.2.1
  | cons char rest inductionHypothesis =>
      rw [List.forall_mem_cons, Nat.ofDigitChars_cons, appendDigits]
      by_cases decimal : char.isDigit = true
      · rw [digitValue?_of_isDigit decimal]
        change (if 10 * value + (char.toNat - 48) ≤ limit then _ else _) = _ ↔
          _ ∧ Nat.ofDigitChars 10 rest (10 * value + (char.toNat - 48)) = result ∧ _
        by_cases fits : 10 * value + (char.toNat - 48) ≤ limit
        · rw [if_pos fits, inductionHypothesis fits]
          simp only [decimal, true_and]
        · rw [if_neg fits]
          refine ⟨fun accepted => (nomatch accepted), ?_⟩
          rintro ⟨-, rfl, within⟩
          exact absurd (Nat.le_trans (le_ofDigitChars _ _) within) fits
      · rw [digitValue?_of_not_isDigit decimal]
        exact ⟨fun accepted => (nomatch accepted), fun accepted => absurd accepted.1.1 decimal⟩

theorem readDigits_eq_ok_iff :
    readDigits limit overflow digits = .ok value ↔ DigitsDenote digits value ∧ value ≤ limit := by
  rw [readDigits]
  cases digits with
  | nil =>
      exact ⟨fun accepted => (nomatch accepted), fun accepted => absurd rfl accepted.1.nonempty⟩
  | cons char rest =>
      rw [List.isEmpty_cons, if_neg Bool.false_ne_true, appendDigits_eq_ok_iff (Nat.zero_le limit)]
      constructor
      · rintro ⟨decimal, value_eq, within⟩
        exact ⟨⟨List.cons_ne_nil _ _, decimal, value_eq⟩, within⟩
      · rintro ⟨⟨-, decimal, value_eq⟩, within⟩
        exact ⟨decimal, value_eq, within⟩

/-! ## Signs -/

theorem not_digitsDenote_cons {char : Char} (other : ¬char.isDigit = true) :
    ¬DigitsDenote (char :: digits) value :=
  fun denotes => other (denotes.decimal char List.mem_cons_self)

theorem denotesNat_plus_iff : DenotesNat ('+' :: digits) value ↔ DigitsDenote digits value := by
  constructor
  · intro denotes
    cases denotes with
    | plain denotes => exact absurd denotes (not_digitsDenote_cons (by decide))
    | plus denotes => exact denotes
  · exact .plus

theorem denotesNat_iff_of_unsigned (unsigned : ∀ digits, chars ≠ '+' :: digits) :
    DenotesNat chars value ↔ DigitsDenote chars value := by
  constructor
  · intro denotes
    cases denotes with
    | plain denotes => exact denotes
    | plus denotes => exact absurd rfl (unsigned _)
  · exact .plain

theorem readNat_eq_ok_iff :
    readNat limit chars = .ok value ↔ DenotesNat chars value ∧ value ≤ limit := by
  rw [readNat.eq_def]
  split
  · have unsigned : ∀ digits, ([] : List Char) ≠ '+' :: digits :=
      fun _ => (List.cons_ne_nil _ _).symm
    rw [denotesNat_iff_of_unsigned unsigned]
    exact ⟨fun accepted => (nomatch accepted), fun accepted => absurd rfl accepted.1.nonempty⟩
  · rw [denotesNat_plus_iff, readDigits_eq_ok_iff]
  · rename_i unsigned
    rw [denotesNat_iff_of_unsigned unsigned, readDigits_eq_ok_iff]

theorem denotesInt_minus_iff {value : Int} :
    DenotesInt ('-' :: digits) value ↔ ∃ magnitude : Nat, DigitsDenote digits magnitude ∧
      value = -magnitude := by
  constructor
  · intro denotes
    cases denotes with
    | nonneg denotes =>
        rw [denotesNat_iff_of_unsigned (fun _ same => absurd (List.cons.inj same).1 (by decide))]
          at denotes
        exact absurd denotes (not_digitsDenote_cons (by decide))
    | minus denotes => exact ⟨_, denotes, rfl⟩
  · rintro ⟨magnitude, denotes, rfl⟩
    exact .minus denotes

theorem denotesInt_iff_of_unsigned {value : Int} (unsigned : ∀ digits, chars ≠ '-' :: digits) :
    DenotesInt chars value ↔ ∃ magnitude : Nat, DenotesNat chars magnitude ∧ value = magnitude := by
  constructor
  · intro denotes
    cases denotes with
    | nonneg denotes => exact ⟨_, denotes, rfl⟩
    | minus denotes => exact absurd rfl (unsigned _)
  · rintro ⟨magnitude, denotes, rfl⟩
    exact .nonneg denotes

theorem map_eq_ok_iff {Error First Second : Type} {result : Except Error First}
    {change : First → Second} {value : Second} :
    result.map change = .ok value ↔ ∃ first, result = .ok first ∧ value = change first := by
  cases result with
  | error error => exact ⟨fun mapped => (nomatch mapped), fun ⟨_, failed, _⟩ => (nomatch failed)⟩
  | ok first =>
      constructor
      · intro mapped
        exact ⟨first, rfl, (Except.ok.inj mapped).symm⟩
      · rintro ⟨_, ok_eq, rfl⟩
        rw [Except.ok.inj ok_eq]
        rfl

theorem readInt_eq_ok_iff {bits : Nat} {value : Int} :
    readInt bits chars = .ok value ↔
      DenotesInt chars value ∧
        -(2 ^ (bits - 1) : Nat) ≤ value ∧ value < (2 ^ (bits - 1) : Nat) := by
  have positive : 0 < 2 ^ (bits - 1) := Nat.two_pow_pos _
  rw [readInt.eq_def]
  split
  · simp only [map_eq_ok_iff, denotesInt_minus_iff, Nat.pow_eq, Int.ofNat_eq_natCast]
    constructor
    · rintro ⟨magnitude, accepted, rfl⟩
      obtain ⟨denotes, within⟩ := readDigits_eq_ok_iff.1 accepted
      exact ⟨⟨magnitude, denotes, rfl⟩, by omega, by omega⟩
    · rintro ⟨⟨magnitude, denotes, rfl⟩, least, -⟩
      exact ⟨magnitude, readDigits_eq_ok_iff.2 ⟨denotes, by omega⟩, rfl⟩
  · rename_i unsigned
    simp only [map_eq_ok_iff, denotesInt_iff_of_unsigned unsigned, Nat.pow_eq,
      Int.ofNat_eq_natCast]
    constructor
    · rintro ⟨magnitude, accepted, rfl⟩
      obtain ⟨denotes, within⟩ := readNat_eq_ok_iff.1 accepted
      exact ⟨⟨magnitude, denotes, rfl⟩, by omega, by omega⟩
    · rintro ⟨⟨magnitude, denotes, rfl⟩, -, greatest⟩
      exact ⟨magnitude, readNat_eq_ok_iff.2 ⟨denotes, by omega⟩, rfl⟩

end Reading

/-! ## Printed integers -/

theorem digitsDenote_toDigits (number : Nat) : DigitsDenote (Nat.toDigits 10 number) number where
  nonempty := Nat.toDigits_ne_nil
  decimal _ member := Nat.isDigit_of_mem_toDigits (by decide) (by decide) member
  value_eq := Nat.ofDigitChars_ten_toDigits

theorem denotesNat_toString (number : Nat) : DenotesNat (toString number).toList number := by
  rw [Nat.toString_eq_repr, Nat.toList_repr]
  exact .plain (digitsDenote_toDigits number)

theorem denotesInt_toString (value : Int) : DenotesInt (toString value).toList value := by
  cases value with
  | ofNat number => exact .nonneg (denotesNat_toString number)
  | negSucc number =>
      have digits_eq : (toString (Int.negSucc number)).toList =
          '-' :: Nat.toDigits 10 (number + 1) := by
        change ("-" ++ Nat.repr (number + 1)).toList = _
        rw [String.toList_append, Nat.toList_repr]
        rfl
      rw [digits_eq]
      exact .minus (digitsDenote_toDigits (number + 1))

/-! ## Blanks around an integer -/

/-- A printable ASCII character is no blank. -/
theorem isBlank_of_graphic {char : Char} (above : 0x20 < char.toNat) (below : char.toNat < 0x7F) :
    isBlank char = false := by
  simp only [isBlank, Bool.or_eq_false_iff, Bool.and_eq_false_iff, decide_eq_false_iff_not,
    beq_eq_false_iff_ne]
  omega

theorem DigitsDenote.solid {digits : List Char} {value : Nat}
    (denotes : DigitsDenote digits value) :
    ∀ char ∈ digits, isBlank char = false := by
  intro char member
  obtain ⟨above, below⟩ : 48 ≤ char.toNat ∧ char.toNat ≤ 57 :=
    isDigit_iff.1 (denotes.decimal char member)
  exact isBlank_of_graphic (by omega) (by omega)

theorem DenotesNat.solid {chars : List Char} {value : Nat} (denotes : DenotesNat chars value) :
    ∀ char ∈ chars, isBlank char = false := by
  cases denotes with
  | plain denotes => exact denotes.solid
  | plus denotes => exact List.forall_mem_cons.2 ⟨rfl, denotes.solid⟩

theorem DenotesInt.solid {chars : List Char} {value : Int} (denotes : DenotesInt chars value) :
    ∀ char ∈ chars, isBlank char = false := by
  cases denotes with
  | nonneg denotes => exact denotes.solid
  | minus denotes => exact List.forall_mem_cons.2 ⟨rfl, denotes.solid⟩

end HackComputer.Text
