import HackComputer.ProgramFile
import HackComputer.Proofs.Text.Blank
import HackComputer.Proofs.Text.Utf8
import HackComputer.Proofs.Word.Binary

/-!
# The grammar of program files

What a program file says, apart from how it is read: the lines that its bytes
fall into (`FallsInto`), and what each line says (`Reads`).  Both are relations
of which the reader computes the only instance, `fallsInto_iff` and `reads_iff`.
-/

namespace HackComputer.ProgramFile

/-! ## Lines -/

/-- The bytes of a file fall into these lines.  A line is ended by a line feed,
or by a carriage return and a line feed; the last one need not be ended, but
then it is not empty. -/
inductive FallsInto : List UInt8 → List (List UInt8) → Prop
  | empty : FallsInto [] []
  | unended {line : List UInt8} (nonempty : line ≠ []) (no_feed : 10 ∉ line) :
      FallsInto line [line]
  | ended {line rest : List UInt8} {others : List (List UInt8)} (no_feed : 10 ∉ line)
      (no_return : line.getLast? ≠ some 13) (behind : FallsInto rest others) :
      FallsInto (line ++ 10 :: rest) (line :: others)
  | endedByReturn {line rest : List UInt8} {others : List (List UInt8)} (no_feed : 10 ∉ line)
      (behind : FallsInto rest others) :
      FallsInto (line ++ 13 :: 10 :: rest) (line :: others)

theorem lines_nil : lines [] = [] :=
  rfl

theorem lines_of_unended {line : List UInt8} (nonempty : line ≠ []) (no_feed : 10 ∉ line) :
    lines line = [line] := by
  have filled : line.isEmpty = false := by
    rw [List.isEmpty_eq_false_iff]
    exact nonempty
  simp [lines, List.splitOn_eq_singleton no_feed, filled]

theorem lines_append_feed {line : List UInt8} (no_feed : 10 ∉ line) (rest : List UInt8) :
    lines (line ++ 10 :: rest) = dropReturn line :: lines rest := by
  have pieces : (line ++ 10 :: rest).splitOn 10 = line :: rest.splitOn 10 :=
    List.splitOn_append_cons_self_of_not_mem no_feed rest
  obtain ⟨first, others, rest_eq⟩ := List.exists_cons_of_ne_nil (List.splitOn_ne_nil 10 rest)
  simp only [lines, pieces, rest_eq, List.getLast?_cons_cons, List.dropLast_cons_cons, List.map_cons,
    List.cons_append]

theorem dropReturn_of_getLast?_ne {line : List UInt8} (no_return : line.getLast? ≠ some 13) :
    dropReturn line = line :=
  if_neg no_return

theorem dropReturn_append_return (line : List UInt8) : dropReturn (line ++ [13]) = line := by
  rw [dropReturn, if_pos List.getLast?_concat, List.dropLast_concat]

theorem lines_of_fallsInto {bytes : List UInt8} {pieces : List (List UInt8)}
    (falls : FallsInto bytes pieces) : lines bytes = pieces := by
  induction falls with
  | empty => exact lines_nil
  | unended nonempty no_feed => exact lines_of_unended nonempty no_feed
  | ended no_feed no_return _ inductionHypothesis =>
      rw [lines_append_feed no_feed, dropReturn_of_getLast?_ne no_return, inductionHypothesis]
  | @endedByReturn line rest others no_feed _ inductionHypothesis =>
      have no_feed' : 10 ∉ line ++ [13] := by
        simpa using no_feed
      rw [← List.singleton_append, ← List.append_assoc, lines_append_feed no_feed',
        dropReturn_append_return, inductionHypothesis]

/-- Bytes in front of a line feed are a line, with a carriage return or without. -/
theorem FallsInto.cons {line rest : List UInt8} {others : List (List UInt8)} (no_feed : 10 ∉ line)
    (behind : FallsInto rest others) :
    FallsInto (line ++ 10 :: rest) (dropReturn line :: others) := by
  by_cases returned : line.getLast? = some 13
  · obtain ⟨front, rfl⟩ := List.getLast?_eq_some_iff.1 returned
    rw [dropReturn_append_return, List.append_assoc, List.singleton_append]
    exact .endedByReturn (fun feed => no_feed (List.mem_append_left _ feed)) behind
  · rw [dropReturn_of_getLast?_ne returned]
    exact .ended no_feed returned behind

/-- The lines of a file are those that its bytes fall into, and no others are. -/
theorem fallsInto_iff {bytes : List UInt8} {pieces : List (List UInt8)} :
    FallsInto bytes pieces ↔ pieces = lines bytes := by
  refine ⟨fun falls => (lines_of_fallsInto falls).symm, ?_⟩
  rintro rfl
  -- The rest behind the first line feed is shorter.
  induction length_eq : bytes.length using Nat.strong_induction_on generalizing bytes with
  | _ length inductionHypothesis =>
      by_cases fed : 10 ∈ bytes
      · obtain ⟨line, rest, rfl, no_feed⟩ := List.eq_append_cons_of_mem fed
        rw [lines_append_feed no_feed]
        refine .cons no_feed (inductionHypothesis rest.length ?_ rfl)
        rw [← length_eq, List.length_append, List.length_cons]
        omega
      · cases bytes with
        | nil => exact .empty
        | cons byte bytes =>
            rw [lines_of_unended (List.cons_ne_nil _ _) fed]
            exact .unended (List.cons_ne_nil _ _) fed

/-! ## What a line says -/

/-- What a line of a program file says. -/
inductive LineReading where
  /-- Nothing: its bytes are no text. -/
  | unreadable
  /-- Nothing that matters: it is blank or a comment. -/
  | skipped
  /-- Something that is not the binary text of a word. -/
  | refused (cause : BinaryError)
  | instruction (word : Word)
  deriving DecidableEq, Repr

/-- The instruction of a line that has one. -/
def LineReading.word? : LineReading → Option Word
  | .instruction word => some word
  | .unreadable | .skipped | .refused _ => none

theorem LineReading.word?_eq_some_iff {reading : LineReading} {word : Word} :
    reading.word? = some word ↔ reading = .instruction word := by
  cases reading <;> simp [word?]

/-- A line that holds no instruction: nothing is left of it when it is trimmed,
or a comment. -/
def IsIdle (chars : List Char) : Prop :=
  Text.trimBlanks chars = [] ∨ ['/', '/'] <+: Text.trimBlanks chars

/-- The bytes of a line say this.  A line that is no comment and not blank has to
have the sixteen binary digits of a word as its first token; if it has not, a
wrong number of characters is reported in preference to a wrong character. -/
inductive Reads : List UInt8 → LineReading → Prop
  | unreadable {line : List UInt8} (invalid : ∀ chars, line ≠ Text.utf8 chars) :
      Reads line .unreadable
  | skipped {chars : List Char} (idle : IsIdle chars) : Reads (Text.utf8 chars) .skipped
  | wrongLength {chars token : List Char} (busy : ¬IsIdle chars)
      (first : Text.HasFirstToken chars token) (length_ne : token.length ≠ 16) :
      Reads (Text.utf8 chars) (.refused (.wrongLength token.length))
  | invalidChar {chars good rest : List Char} {char : Char} (busy : ¬IsIdle chars)
      (first : Text.HasFirstToken chars (good ++ char :: rest))
      (full : (good ++ char :: rest).length = 16) (binary : ∀ digit ∈ good, digit = '0' ∨ digit = '1')
      (invalid : ¬(char = '0' ∨ char = '1')) :
      Reads (Text.utf8 chars) (.refused (.invalidChar char))
  | instruction {chars token : List Char} {word : Word} (busy : ¬IsIdle chars)
      (first : Text.HasFirstToken chars token) (full : token.length = 16)
      (binary : ∀ digit ∈ token, digit = '0' ∨ digit = '1')
      (value : word.toNat = Word.binaryValue token) :
      Reads (Text.utf8 chars) (.instruction word)

/-- What a line says, as the reader finds out. -/
def LineReading.of (line : List UInt8) : LineReading :=
  match decodeLine line with
  | .error _ => .unreadable
  | .ok chars =>
    match instructionPart? chars with
    | none => .skipped
    | some part =>
      match Word.ofBinaryChars part with
      | .error cause => .refused cause
      | .ok word => .instruction word

theorem decodeLine_utf8 (chars : List Char) : decodeLine (Text.utf8 chars) = .ok chars := by
  have decoded : String.fromUTF8? (Text.utf8 chars).toByteArray = some (String.ofList chars) :=
    Text.fromUTF8?_eq_some_iff.2 (by rw [String.toList_ofList])
  rw [decodeLine, decoded]
  exact congrArg Except.ok String.toList_ofList

theorem decodeLine_of_invalid {line : List UInt8} (invalid : ∀ chars, line ≠ Text.utf8 chars) :
    decodeLine line = .error (.stream .invalidUtf8) := by
  rw [decodeLine]
  split
  · rename_i text decoded
    exact absurd (Text.fromUTF8?_eq_some_iff.1 decoded) (invalid _)
  · rfl

theorem eq_of_decodeLine_eq_error {line : List UInt8} {error : ProgramFileError}
    (failed : decodeLine line = .error error) : error = .stream .invalidUtf8 := by
  rw [decodeLine] at failed
  split at failed
  · contradiction
  · exact (Except.error.inj failed).symm

theorem isIdle_iff {chars : List Char} :
    IsIdle chars ↔
      chars.dropWhile Text.isBlank = [] ∨ ['/', '/'] <+: chars.dropWhile Text.isBlank := by
  have solid : ∀ char ∈ ['/', '/'], Text.isBlank char = false :=
    List.forall_mem_cons.2 ⟨rfl, List.forall_mem_singleton.2 rfl⟩
  rw [IsIdle, Text.trimBlanks_eq_nil_iff, Text.isPrefix_trimBlanks_iff solid]

theorem instructionPart?_of_isIdle {chars : List Char} (idle : IsIdle chars) :
    instructionPart? chars = none := by
  rw [instructionPart?]
  rcases isIdle_iff.1 idle with empty | ⟨rest, comment⟩
  · rw [empty]
  · rw [← comment]
    rfl

theorem instructionPart?_of_hasFirstToken {chars token : List Char} (busy : ¬IsIdle chars)
    (first : Text.HasFirstToken chars token) : instructionPart? chars = some token := by
  obtain ⟨-, token_eq⟩ := Text.hasFirstToken_iff.1 first
  rw [isIdle_iff] at busy
  rw [instructionPart?]
  split
  · rename_i empty
    exact absurd (.inl empty) busy
  · rename_i rest comment
    exact absurd (.inr ⟨rest, comment.symm⟩) busy
  · rw [token_eq]

/-- A line that is not idle has a first token. -/
theorem exists_hasFirstToken {chars : List Char} (busy : ¬IsIdle chars) :
    ∃ token, Text.HasFirstToken chars token := by
  rw [isIdle_iff] at busy
  refine ⟨_, Text.hasFirstToken_iff.2 ⟨?_, rfl⟩⟩
  cases rest_eq : chars.dropWhile Text.isBlank with
  | nil => exact absurd (.inl rest_eq) busy
  | cons char rest =>
      have solid := List.head?_dropWhile_not Text.isBlank chars
      rw [rest_eq] at solid
      have solid : Text.isBlank char = false := solid
      rw [List.takeWhile_cons_of_pos (by rw [solid]; rfl)]
      exact List.cons_ne_nil _ _

theorem LineReading.of_utf8_of_isIdle {chars : List Char} (idle : IsIdle chars) :
    of (Text.utf8 chars) = .skipped := by
  simp only [of, decodeLine_utf8, instructionPart?_of_isIdle idle]

theorem LineReading.of_utf8_of_hasFirstToken {chars token : List Char} (busy : ¬IsIdle chars)
    (first : Text.HasFirstToken chars token) :
    of (Text.utf8 chars) =
      match Word.ofBinaryChars token with
      | .error cause => .refused cause
      | .ok word => .instruction word := by
  simp only [of, decodeLine_utf8, instructionPart?_of_hasFirstToken busy first]

theorem LineReading.of_eq_of_reads {line : List UInt8} {reading : LineReading}
    (reads : Reads line reading) : of line = reading := by
  cases reads with
  | unreadable invalid => rw [of, decodeLine_of_invalid invalid]
  | skipped idle => exact of_utf8_of_isIdle idle
  | wrongLength busy first length_ne =>
      rw [of_utf8_of_hasFirstToken busy first, Word.ofBinaryChars_of_length_ne length_ne]
  | invalidChar busy first full binary invalid =>
      rw [of_utf8_of_hasFirstToken busy first, Word.ofBinaryChars_of_invalidChar full
        (fun digit member => Word.isBinaryDigit_iff.2 (binary digit member))
        (Bool.eq_false_iff.2 fun digit => invalid (Word.isBinaryDigit_iff.1 digit))]
  | @instruction chars token word busy first full binary value =>
      rw [of_utf8_of_hasFirstToken busy first, Word.ofBinaryChars_of_binary full
        fun digit member => Word.isBinaryDigit_iff.2 (binary digit member),
        Word.ofBinaryDigits_eq_of_toNat full.le value]

theorem exists_reads_of_hasFirstToken {chars token : List Char} (busy : ¬IsIdle chars)
    (first : Text.HasFirstToken chars token) : ∃ reading, Reads (Text.utf8 chars) reading := by
  by_cases full : token.length = 16
  · cases found : token.find? (fun char => !Word.isBinaryDigit char) with
    | none =>
        have binary : ∀ digit ∈ token, digit = '0' ∨ digit = '1' := by
          intro digit member
          have := List.find?_eq_none.1 found digit member
          exact Word.isBinaryDigit_iff.1 (by simpa using this)
        exact ⟨_, .instruction busy first full binary (Word.toNat_ofBinaryDigits full.le)⟩
    | some char =>
        obtain ⟨invalid, good, rest, rfl, binary⟩ := List.find?_eq_some_iff_append.1 found
        refine ⟨_, .invalidChar busy first full ?_ ?_⟩
        · intro digit member
          exact Word.isBinaryDigit_iff.1 (by simpa using binary digit member)
        · rw [← Word.isBinaryDigit_iff]
          simpa using invalid
  · exact ⟨_, .wrongLength busy first full⟩

theorem exists_reads (line : List UInt8) : ∃ reading, Reads line reading := by
  by_cases valid : ∃ chars, line = Text.utf8 chars
  · obtain ⟨chars, rfl⟩ := valid
    by_cases idle : IsIdle chars
    · exact ⟨_, .skipped idle⟩
    · obtain ⟨token, first⟩ := exists_hasFirstToken idle
      exact exists_reads_of_hasFirstToken idle first
  · exact ⟨_, .unreadable (not_exists.1 valid)⟩

/-- Every line says one thing, which is what the reader finds out. -/
theorem reads_iff {line : List UInt8} {reading : LineReading} :
    Reads line reading ↔ reading = .of line := by
  constructor
  · exact fun reads => (LineReading.of_eq_of_reads reads).symm
  · rintro rfl
    obtain ⟨reading, reads⟩ := exists_reads line
    rwa [LineReading.of_eq_of_reads reads]

theorem forall₂_reads_iff {pieces : List (List UInt8)} {readings : List LineReading} :
    List.Forall₂ Reads pieces readings ↔ readings = pieces.map .of := by
  have reads_eq : Reads = fun line reading => LineReading.of line = reading := by
    funext line reading
    exact propext (reads_iff.trans eq_comm)
  have mapped : List.Forall₂ Eq (pieces.map .of) readings ↔
      List.Forall₂ (fun line reading => LineReading.of line = reading) pieces readings :=
    List.forall₂_map_left_iff
  rw [reads_eq, ← mapped, List.forall₂_eq_eq_eq, eq_comm]

/-! ## Lines with an instruction -/

theorem not_isIdle_of_hasFirstToken {chars : List Char} {word : Word}
    (first : Text.HasFirstToken chars word.binaryDigits) : ¬IsIdle chars := by
  obtain ⟨nonempty, token_eq⟩ := Text.hasFirstToken_iff.1 first
  rw [isIdle_iff]
  rintro (empty | ⟨rest, comment⟩)
  · rw [empty] at token_eq
    exact nonempty token_eq.symm
  · rw [← comment] at token_eq
    have slash : '/' ∈ word.binaryDigits := by
      rw [← token_eq]
      exact List.mem_cons_self
    exact absurd (Word.isBinaryDigit_of_mem_binaryDigits slash) (by decide)

/-- A line has this instruction exactly if its binary text is the first token. -/
theorem reads_instruction_iff {line : List UInt8} {word : Word} :
    Reads line (.instruction word) ↔
      ∃ chars, line = Text.utf8 chars ∧ Text.HasFirstToken chars word.binaryDigits := by
  constructor
  · intro reads
    cases reads with
    | @instruction chars token word busy first full binary value =>
        refine ⟨chars, rfl, ?_⟩
        have token_eq : word.binaryDigits = token := by
          rw [← Word.ofBinaryDigits_eq_of_toNat full.le value, Word.binaryDigits_ofBinaryDigits full
            fun digit member => Word.isBinaryDigit_iff.2 (binary digit member)]
        rwa [token_eq]
  · rintro ⟨chars, rfl, first⟩
    exact .instruction (not_isIdle_of_hasFirstToken first) first word.length_binaryDigits
      (fun digit member => Word.isBinaryDigit_iff.1 (Word.isBinaryDigit_of_mem_binaryDigits member))
      word.binaryValue_binaryDigits.symm

end HackComputer.ProgramFile
