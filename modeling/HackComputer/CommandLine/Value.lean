import HackComputer.Text.Blank
import HackComputer.Text.Integer
import HackComputer.Word

/-!
# Values of options

An initial memory word is written `ADDR=VALUE`, a range of cells `START:COUNT`.
The text is split at the first separator, and blanks around the two parts do
not count.  A missing separator is reported before a bad part, and the first
part before the second.
-/

namespace HackComputer.CommandLine

open Text (IntegerError)

/-- A word to store before a run. -/
structure Assignment where
  address : Word
  value : Word
  deriving DecidableEq, Repr

/-- Cells to show after a run. -/
structure CellRange where
  start : Nat
  count : Nat
  deriving DecidableEq, Repr

/-- Why the value of an option is refused. -/
inductive ValueError where
  | integer (cause : IntegerError)
  /-- A key code outside the range of a word. -/
  | keyRange (value : Int)
  /-- A text without the separator that `form` shows. -/
  | noSeparator (form : String)
  /-- A part that is no integer of its range. -/
  | part (name : String) (cause : IntegerError)
  deriving DecidableEq, Repr

/-- The text that reports a refused value. -/
def ValueError.message : ValueError → String
  | .integer cause => cause.message
  | .keyRange value => s!"{value} is not in 0..=65535"
  | .noSeparator form => "expected " ++ form
  | .part name cause => "bad " ++ name ++ ": " ++ cause.message

/-- The characters before and after the first `separator`. -/
def splitAtFirst? (separator : Char) (chars : List Char) : Option (List Char × List Char) :=
  match chars.dropWhile (· != separator) with
  | [] => none
  | _ :: after => some (chars.takeWhile (· != separator), after)

/-- Reports a failed integer as the part `name` of a value. -/
def inPart {α : Type} (name : String) : Except IntegerError α → Except ValueError α
  | .ok value => .ok value
  | .error cause => .error (.part name cause)

/-- Reads an assignment: an unsigned address and a signed value of sixteen
bits. -/
def readAssignment (chars : List Char) : Except ValueError Assignment := do
  match splitAtFirst? '=' chars with
  | none => throw (.noSeparator "ADDR=VALUE")
  | some (before, after) =>
    let address ← inPart "address" (Text.readNat 0xFFFF (Text.trimBlanks before))
    let value ← inPart "value" (Text.readInt 16 (Text.trimBlanks after))
    return { address := .ofNat 16 address, value := .ofInt 16 value }

/-- Reads a range: two unsigned numbers of 64 bits. -/
def readCellRange (chars : List Char) : Except ValueError CellRange := do
  match splitAtFirst? ':' chars with
  | none => throw (.noSeparator "START:COUNT")
  | some (before, after) =>
    let start ← inPart "start" (Text.readNat 0xFFFFFFFFFFFFFFFF (Text.trimBlanks before))
    let count ← inPart "count" (Text.readNat 0xFFFFFFFFFFFFFFFF (Text.trimBlanks after))
    return { start, count }

/-- Reads a number of cycles. -/
def readCycles (chars : List Char) : Except ValueError Nat :=
  match Text.readNat 0xFFFFFFFFFFFFFFFF chars with
  | .ok cycles => .ok cycles
  | .error cause => .error (.integer cause)

/-- Reads a key code: an integer of 64 bits in the range of a word. -/
def readKeyCode (chars : List Char) : Except ValueError Word :=
  match Text.readInt 64 chars with
  | .error cause => .error (.integer cause)
  | .ok code =>
    if 0 ≤ code ∧ code ≤ 0xFFFF then .ok (.ofInt 16 code) else .error (.keyRange code)

end HackComputer.CommandLine
