import HackComputer.Word

/-!
# Binary text of a word

A word is written as sixteen binary digits, the most significant first.
Reading accepts exactly what writing produces; what it refuses is refused for
its length, counted in characters, before any character is looked at.
-/

namespace HackComputer

/-- Why a text is not the binary text of a word. -/
inductive BinaryError where
  /-- The text has `count` characters instead of sixteen. -/
  | wrongLength (count : Nat)
  /-- The first character that is not a binary digit. -/
  | invalidChar (char : Char)
  deriving DecidableEq, Repr

/-- The text that reports a refused binary text. -/
def BinaryError.message : BinaryError → String
  | .wrongLength count => s!"expected 16 bits, got {count}"
  | .invalidChar char => s!"invalid bit character: '{char}' (expected 0/1)"

namespace Word

/-- The digit that shows a bit. -/
def binaryDigit (bit : Bool) : Char :=
  if bit then '1' else '0'

/-- The sixteen binary digits of a word, most significant first. -/
def binaryDigits (word : Word) : List Char :=
  List.ofFn fun i : Fin 16 => binaryDigit (word.getMsbD i)

/-- The binary text of a word. -/
def toBinary (word : Word) : String :=
  String.ofList word.binaryDigits

/-- Is the character a binary digit? -/
def isBinaryDigit (char : Char) : Bool :=
  char == '0' || char == '1'

/-- The value of a sequence of binary digits, most significant first. -/
def ofBinaryDigits (digits : List Char) : Word :=
  digits.foldl (fun word char => word.shiftConcat (char == '1')) 0

/-- Reads a word from its sixteen binary digits. -/
def ofBinaryChars (chars : List Char) : Except BinaryError Word :=
  if chars.length ≠ 16 then .error (.wrongLength chars.length)
  else
    match chars.find? (fun char => !isBinaryDigit char) with
    | some char => .error (.invalidChar char)
    | none => .ok (ofBinaryDigits chars)

/-- Reads a word from its binary text. -/
def ofBinary (text : String) : Except BinaryError Word :=
  ofBinaryChars text.toList

@[simp]
theorem length_binaryDigits (word : Word) : word.binaryDigits.length = 16 := by
  simp [binaryDigits]

@[simp]
theorem toList_toBinary (word : Word) : word.toBinary.toList = word.binaryDigits := by
  simp [toBinary]

end Word

end HackComputer
