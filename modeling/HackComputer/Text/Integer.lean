/-!
# Integers in decimal text

An integer is written as an optional sign and one or more ASCII digits;
leading zeros are allowed.  The sign `-` belongs only to types with negative
values.  Digits are taken from left to right, and the first one that is no
digit or that carries the value out of range decides the error.
-/

namespace HackComputer.Text

/-- Why a text is not an integer of the wanted range. -/
inductive IntegerError where
  | empty
  | invalidDigit
  | tooLarge
  | tooSmall
  deriving DecidableEq, Repr

/-- The text that reports a refused integer. -/
def IntegerError.message : IntegerError → String
  | .empty => "cannot parse integer from empty string"
  | .invalidDigit => "invalid digit found in string"
  | .tooLarge => "number too large to fit in target type"
  | .tooSmall => "number too small to fit in target type"

/-- The value of an ASCII decimal digit. -/
def digitValue? (char : Char) : Option Nat :=
  if '0' ≤ char ∧ char ≤ '9' then some (char.toNat - 48) else none

/-- Appends decimal digits to `value`, failing with `overflow` as soon as the
value exceeds `limit`. -/
def appendDigits (limit : Nat) (overflow : IntegerError) :
    Nat → List Char → Except IntegerError Nat
  | value, [] => .ok value
  | value, char :: rest =>
    match digitValue? char with
    | none => .error .invalidDigit
    | some digit =>
      if 10 * value + digit ≤ limit then appendDigits limit overflow (10 * value + digit) rest
      else .error overflow

/-- The value of a nonempty sequence of decimal digits, at most `limit`. -/
def readDigits (limit : Nat) (overflow : IntegerError) (digits : List Char) :
    Except IntegerError Nat :=
  if digits.isEmpty then .error .invalidDigit else appendDigits limit overflow 0 digits

/-- Reads a number between 0 and `limit`. -/
def readNat (limit : Nat) : List Char → Except IntegerError Nat
  | [] => .error .empty
  | '+' :: digits => readDigits limit .tooLarge digits
  | digits => readDigits limit .tooLarge digits

/-- Reads an integer of `bits` bits in two's complement range. -/
def readInt (bits : Nat) : List Char → Except IntegerError Int
  | '-' :: digits =>
    (readDigits (Nat.pow 2 (bits - 1)) .tooSmall digits).map fun magnitude => -Int.ofNat magnitude
  | chars => (readNat (Nat.pow 2 (bits - 1) - 1) chars).map Int.ofNat

end HackComputer.Text
