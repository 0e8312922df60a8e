import HackComputer.Memory.Region
import HackComputer.Stream
import HackComputer.Text.Blank
import HackComputer.Word.Binary

/-!
# Program files

A program file has one instruction on a line, as sixteen binary digits; what
follows the digits after a blank is ignored, and so are blank lines and lines
that start with `//`.  Reading remembers the line of each instruction.
-/

namespace HackComputer

/-- An instruction word and the line of the file that it stands on. -/
structure ProgramEntry where
  word : Word
  /-- The line, counted from 1. -/
  line : Nat
  deriving DecidableEq, Repr

/-- The contents of a program file. -/
structure ProgramFile where
  entries : Array ProgramEntry
  deriving DecidableEq, Repr

/-- Why a program file is refused. -/
inductive ProgramFileError where
  | stream (cause : StreamError)
  /-- A line whose instruction is not the binary text of a word. -/
  | malformed (line : Nat) (cause : BinaryError)
  /-- More instructions than program memory has cells. -/
  | tooLarge
  deriving DecidableEq, Repr

/-- The text that reports a refused program file. -/
def ProgramFileError.message : ProgramFileError → String
  | .stream cause => cause.message
  | .malformed line cause => s!"parse error on line {line}: {cause.message}"
  | .tooLarge => s!"program exceeds the {romSize}-word ROM"

namespace ProgramFile

/-- A file without instructions. -/
def empty : ProgramFile :=
  ⟨#[]⟩

/-- The number of instructions. -/
def size (file : ProgramFile) : Nat :=
  file.entries.size

/-- The instruction words, in order. -/
def instructions (file : ProgramFile) : List Word :=
  file.entries.toList.map (·.word)

/-- The line of each instruction, in order. -/
def sourceLines (file : ProgramFile) : List Nat :=
  file.entries.toList.map (·.line)

/-- The line of the instruction at an address of program memory. -/
def sourceLine? (file : ProgramFile) (address : Word) : Option Nat :=
  file.entries[address.toNat]?.map (·.line)

/-! ## Reading -/

/-- A line without the carriage return at its end. -/
def dropReturn (line : List UInt8) : List UInt8 :=
  if line.getLast? = some 13 then line.dropLast else line

/-- The lines of a file.  A line ends at a line feed, with a carriage return
before it; bytes after the last line feed are one more line, if there are any. -/
def lines (bytes : List UInt8) : List (List UInt8) :=
  let pieces := bytes.splitOn 10
  let last := pieces.getLast?.getD []
  pieces.dropLast.map dropReturn ++ if last.isEmpty then [] else [last]

/-- The characters of a line, if its bytes are valid UTF-8. -/
def decodeLine (line : List UInt8) : Except ProgramFileError (List Char) :=
  match String.fromUTF8? line.toByteArray with
  | some text => .ok text.toList
  | none => .error (.stream .invalidUtf8)

/-- The part of a line that has to be an instruction: the characters from the
first one that is not blank to the next blank.  Blank lines and comments have
none. -/
def instructionPart? (line : List Char) : Option (List Char) :=
  match line.dropWhile Text.isBlank with
  | [] => none
  | '/' :: '/' :: _ => none
  | chars => some (chars.takeWhile fun char => !Text.isBlank char)

/-- Takes in one line, with its index counted from 0. -/
def readLine (file : ProgramFile) (line : List UInt8 × Nat) :
    Except ProgramFileError ProgramFile := do
  let chars ← decodeLine line.1
  match instructionPart? chars with
  | none => return file
  | some part =>
    match Word.ofBinaryChars part with
    | .error cause => throw (.malformed (line.2 + 1) cause)
    | .ok word =>
      if file.size = romSize then throw .tooLarge
      else return ⟨file.entries.push ⟨word, line.2 + 1⟩⟩

/-- Reads a program file.  The first line in order that offends decides the
error. -/
def ofBytes (bytes : List UInt8) : Except ProgramFileError ProgramFile :=
  (lines bytes).zipIdx.foldlM readLine empty

/-- Reads a program file held as text. -/
def ofText (text : String) : Except ProgramFileError ProgramFile :=
  ofBytes text.toUTF8.toList

/-- Reads a program file from a place. -/
def load (place : Place) : Except ProgramFileError ProgramFile :=
  match place.read with
  | .error cause => .error (.stream cause)
  | .ok bytes => ofBytes bytes

/-! ## Writing -/

/-- The line of an instruction. -/
def lineText (word : Word) : String :=
  word.toBinary ++ "\n"

/-- The program file of a list of instructions. -/
def text (words : List Word) : String :=
  String.join (words.map lineText)

/-- Writes the lines of a list of instructions one after the other. -/
def writeTo (sink : Sink) (words : List Word) : Except ProgramFileError Sink :=
  match words.foldlM (fun sink word => sink.write (lineText word)) sink with
  | .ok sink => .ok sink
  | .error cause => .error (.stream cause)

/-- Saves a list of instructions at a place. -/
def save (place : Place) (words : List Word) : Except ProgramFileError Place :=
  match place.save (text words).toUTF8.toList with
  | .ok place => .ok place
  | .error cause => .error (.stream cause)

end ProgramFile

end HackComputer
