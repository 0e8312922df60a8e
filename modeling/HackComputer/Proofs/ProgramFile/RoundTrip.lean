import HackComputer.Proofs.Instruction.Code
import HackComputer.Proofs.ProgramFile.Reading

/-!
# Reading what has been written

A written file has the digits of one word on each line, so its lines say exactly
the words that were written.  What reading makes of them is then a matter of
their number alone.
-/

namespace HackComputer.ProgramFile

/-! ## The written text -/

theorem text_cons (word : Word) (words : List Word) :
    text (word :: words) = lineText word ++ text words := by
  rw [text, List.map_cons, String.join_cons]
  rfl

theorem length_lineText (word : Word) : (lineText word).length = 17 := by
  rw [lineText, String.length_append, ← String.length_toList, Word.toList_toBinary,
    Word.length_binaryDigits]
  rfl

theorem toList_text_cons (word : Word) (words : List Word) :
    (text (word :: words)).toList = word.binaryDigits ++ '\n' :: (text words).toList := by
  rw [text_cons, lineText, String.toList_append, String.toList_append, Word.toList_toBinary,
    List.append_assoc]
  rfl

/-- A sink with room for all the lines takes them in order. -/
theorem foldlM_write {words : List Word} {sink : Sink}
    (room : 17 * words.length ≤ sink.rest.length) :
    words.foldlM (fun sink word => sink.write (lineText word)) sink =
      .ok ⟨sink.written ++ text words, sink.rest.drop (17 * words.length)⟩ := by
  induction words generalizing sink with
  | nil => simp [text, pure, Except.pure]
  | cons word words inductionHypothesis =>
      rw [List.length_cons, Nat.mul_succ] at room
      have written : sink.write (lineText word) =
          .ok ⟨sink.written ++ lineText word, sink.rest.drop 17⟩ := by
        rw [Sink.write, length_lineText, if_pos (List.length_take_of_le (by omega))]
      have room' : 17 * words.length ≤ (sink.rest.drop 17).length := by
        rw [List.length_drop]
        omega
      rw [List.foldlM_cons, written]
      refine (inductionHypothesis room').trans ?_
      rw [text_cons, String.append_assoc, List.drop_drop, List.length_cons, Nat.mul_succ,
        Nat.add_comm 17]

theorem writeTo_of_room {words : List Word} {buffer : String}
    (room : 17 * words.length ≤ buffer.length) :
    writeTo (.ofBuffer buffer) words =
      .ok ⟨text words, buffer.toList.drop (17 * words.length)⟩ := by
  rw [← String.length_toList] at room
  rw [writeTo, foldlM_write room]
  simp only [Sink.ofBuffer, String.empty_append]

/-! ## Its lines -/

theorem eq_digit_of_mem_utf8 {word : Word} {byte : UInt8}
    (member : byte ∈ Text.utf8 word.binaryDigits) : byte = 48 ∨ byte = 49 := by
  obtain ⟨char, digit, encoded⟩ := List.mem_flatMap.1 member
  rcases Word.isBinaryDigit_iff.1 (Word.isBinaryDigit_of_mem_binaryDigits digit) with rfl | rfl
  · exact .inl (List.mem_singleton.1 encoded)
  · exact .inr (List.mem_singleton.1 encoded)

theorem fallsInto_text (words : List Word) :
    FallsInto (Text.utf8 (text words).toList)
      (words.map fun word => Text.utf8 word.binaryDigits) := by
  induction words with
  | nil => exact .empty
  | cons word words inductionHypothesis =>
      rw [toList_text_cons, Text.utf8_append]
      refine .ended ?_ ?_ inductionHypothesis
      · intro feed
        exact absurd (eq_digit_of_mem_utf8 feed) (by decide)
      · intro returned
        exact absurd (eq_digit_of_mem_utf8 (List.mem_of_getLast? returned)) (by decide)

theorem hasFirstToken_binaryDigits (word : Word) :
    Text.HasFirstToken word.binaryDigits word.binaryDigits := by
  refine ⟨[], [], by simp, by simp, ?_, ?_, by simp⟩
  · exact List.ne_nil_of_length_pos (by rw [Word.length_binaryDigits]; decide)
  · intro char digit
    rcases Word.isBinaryDigit_iff.1 (Word.isBinaryDigit_of_mem_binaryDigits digit) with rfl | rfl
    · rfl
    · rfl

theorem forall₂_reads_text (words : List Word) :
    List.Forall₂ Reads (words.map fun word => Text.utf8 word.binaryDigits)
      (words.map .instruction) := by
  rw [List.forall₂_map_left_iff, List.forall₂_map_right_iff, List.forall₂_same]
  intro word _
  exact reads_instruction_iff.2 ⟨_, rfl, hasFirstToken_binaryDigits word⟩

theorem ofText_text (words : List Word) :
    ofText (text words) = enterAll (words.map .instruction) := by
  rw [ofText, Text.toList_toUTF8, ofBytes_eq_enterAll, ← fallsInto_iff.1 (fallsInto_text words),
    ← forall₂_reads_iff.1 (forall₂_reads_text words)]

/-! ## Lines that are all instructions -/

variable {words : List Word}

theorem filterMap_word?_instructions (words : List Word) :
    (words.map LineReading.instruction).filterMap LineReading.word? = words := by
  rw [List.filterMap_map]
  exact List.filterMap_some

theorem getElem?_instructions_eq_some_iff {index : Nat} {reading : LineReading} :
    (words.map .instruction)[index]? = some reading ↔
      ∃ word, words[index]? = some word ∧ .instruction word = reading := by
  rw [List.getElem?_map, Option.map_eq_some_iff]

/-- What is wrong with such lines is that there are too many. -/
theorem offends_instructions_iff {index : Nat} {error : ProgramFileError} :
    Offends (words.map .instruction) index error ↔
      error = .tooLarge ∧ romSize ≤ index ∧ index < words.length := by
  have count_eq : index < words.length →
      (((words.map LineReading.instruction).take index).filterMap LineReading.word?).length =
        index := by
    intro inside
    rw [← List.map_take, filterMap_word?_instructions, List.length_take_of_le inside.le]
  constructor
  · intro offends
    cases offends with
    | unreadable here =>
        obtain ⟨_, -, other⟩ := getElem?_instructions_eq_some_iff.1 here
        contradiction
    | refused here =>
        obtain ⟨_, -, other⟩ := getElem?_instructions_eq_some_iff.1 here
        contradiction
    | tooLarge here full =>
        obtain ⟨_, here, -⟩ := getElem?_instructions_eq_some_iff.1 here
        obtain ⟨inside, -⟩ := List.getElem?_eq_some_iff.1 here
        rw [count_eq inside] at full
        exact ⟨rfl, full, inside⟩
  · rintro ⟨rfl, full, inside⟩
    have here : (words.map LineReading.instruction)[index]? = some (.instruction words[index]) :=
      getElem?_instructions_eq_some_iff.2 ⟨_, List.getElem?_eq_getElem inside, rfl⟩
    exact .tooLarge here (by rwa [count_eq inside])

theorem sourceLines_instructions (words : List Word) :
    (ofReadings (words.map .instruction)).sourceLines = List.range' 1 words.length := by
  have numbers (number : Nat) : (numbered number (words.map .instruction)).map (·.line) =
      List.range' number words.length := by
    induction words generalizing number with
    | nil => rfl
    | cons word words inductionHypothesis =>
        rw [List.map_cons, numbered, List.map_append, inductionHypothesis]
        rfl
  exact numbers 1

theorem ofText_text_of_le (fits : words.length ≤ romSize) :
    ofText (text words) = .ok (ofReadings (words.map .instruction)) := by
  rw [ofText_text]
  refine (enterAll_of_clean fun index error offends => ?_).1
  obtain ⟨-, full, inside⟩ := offends_instructions_iff.1 offends
  omega

theorem ofText_text_of_lt (exceeds : romSize < words.length) :
    ofText (text words) = .error .tooLarge := by
  have offence : FirstOffence (words.map .instruction) romSize .tooLarge := by
    refine ⟨offends_instructions_iff.2 ⟨rfl, le_rfl, exceeds⟩, ?_⟩
    intro earlier before error offends
    obtain ⟨-, full, -⟩ := offends_instructions_iff.1 offends
    exact absurd before (Nat.not_lt.2 full)
  rw [ofText_text, enterAll_of_firstOffence offence]

/-- A program that is written and read again is the same program, its
instructions on the lines from 1 on, if program memory has room for it; if not,
its file is refused.  What is read from any file is read again from what is
written of it, which stays the same from then on. -/
theorem program_survives_writing_and_reading :
    (∀ words buffer, 17 * words.length ≤ buffer.length →
      ∃ sink, writeTo (.ofBuffer buffer) words = .ok sink ∧ sink.written = text words) ∧
    (∀ program : List Instruction, (∀ instruction ∈ program, instruction.FitsWord) →
      (program.length ≤ romSize → ∃ file, ofText (text (program.map Instruction.encode)) = .ok file ∧
        file.instructions.map Instruction.decode = program ∧
        file.sourceLines = List.range' 1 program.length) ∧
      (romSize < program.length →
        ofText (text (program.map Instruction.encode)) = .error .tooLarge)) ∧
    (∀ source file, ofText source = .ok file →
      ∃ again, ofText (text file.instructions) = .ok again ∧
        again.instructions = file.instructions ∧
        text again.instructions = text file.instructions) := by
  refine ⟨fun words buffer room => ⟨_, writeTo_of_room room, rfl⟩, ?_, ?_⟩
  · intro program fit
    have length_eq : (program.map Instruction.encode).length = program.length := List.length_map _
    rw [← length_eq]
    refine ⟨fun fits => ⟨_, ofText_text_of_le fits, ?_, sourceLines_instructions _⟩,
      ofText_text_of_lt⟩
    have decoded : program.map (Instruction.decode ∘ Instruction.encode) = program.map id :=
      List.map_congr_left fun instruction member =>
        Instruction.decode_encode_iff.2 (fit instruction member)
    rw [instructions_ofReadings, filterMap_word?_instructions, List.map_map, decoded, List.map_id]
  · intro source file accepted
    obtain ⟨-, fits⟩ := eq_ofReadings_of_ofBytes accepted
    have same : (ofReadings (file.instructions.map .instruction)).instructions =
        file.instructions := by
      rw [instructions_ofReadings, filterMap_word?_instructions]
    exact ⟨_, ofText_text_of_le fits, same, by rw [same]⟩

theorem two_instructions_survive_writing_and_reading :
    let program : List Instruction :=
      [.address 21, .compute ⟨.register, AluFunction.y.flags, ⟨false, true, false⟩, .ofField 0⟩]
    ∃ file, ofText (text (program.map Instruction.encode)) = .ok file ∧
      file.instructions.map Instruction.decode = program ∧ file.sourceLines = [1, 2] :=
  (program_survives_writing_and_reading.2.1 _ (by decide)).1 (by decide)

end HackComputer.ProgramFile
