import HackComputer.Proofs.ProgramFile.Grammar

/-!
# Reading program files

Reading takes in the lines of a file one by one.  `enterAll_take` says what it
has after any number of lines none of which offends, and both outcomes of
reading follow from it: the error of the first line that offends, or all
instructions with the numbers of their lines.
-/

namespace HackComputer.ProgramFile

/-- The line with this index, counted from 0, has the file refused with this
error. -/
inductive Offends (readings : List LineReading) (index : Nat) : ProgramFileError → Prop
  | unreadable (here : readings[index]? = some .unreadable) :
      Offends readings index (.stream .invalidUtf8)
  | refused {cause : BinaryError} (here : readings[index]? = some (.refused cause)) :
      Offends readings index (.malformed (index + 1) cause)
  | tooLarge {word : Word} (here : readings[index]? = some (.instruction word))
      (full : romSize ≤ ((readings.take index).filterMap LineReading.word?).length) :
      Offends readings index .tooLarge

/-- The line with this index is the first that offends. -/
structure FirstOffence (readings : List LineReading) (index : Nat) (error : ProgramFileError) :
    Prop where
  offends : Offends readings index error
  first : ∀ earlier < index, ∀ error, ¬Offends readings earlier error

/-! ## Instructions with the numbers of their lines -/

/-- The instructions of lines that are numbered from `number` on. -/
def numbered : Nat → List LineReading → List ProgramEntry
  | _, [] => []
  | number, reading :: rest =>
      (reading.word?.map fun word => ⟨word, number⟩).toList ++ numbered (number + 1) rest

theorem numbered_append (number : Nat) (first second : List LineReading) :
    numbered number (first ++ second) =
      numbered number first ++ numbered (number + first.length) second := by
  induction first generalizing number with
  | nil => rfl
  | cons reading first inductionHypothesis =>
      rw [List.cons_append, numbered, numbered, inductionHypothesis, List.append_assoc,
        List.length_cons, Nat.add_right_comm, Nat.add_assoc]

theorem map_word_numbered (number : Nat) (readings : List LineReading) :
    (numbered number readings).map (·.word) = readings.filterMap LineReading.word? := by
  induction readings generalizing number with
  | nil => rfl
  | cons reading readings inductionHypothesis =>
      rw [numbered, List.map_append, inductionHypothesis]
      cases reading <;> rfl

theorem mem_numbered_iff {number : Nat} {readings : List LineReading} {entry : ProgramEntry} :
    entry ∈ numbered number readings ↔
      ∃ index, readings[index]? = some (.instruction entry.word) ∧ entry.line = number + index := by
  induction readings generalizing number with
  | nil => simp [numbered]
  | cons reading readings inductionHypothesis =>
      rw [numbered, List.mem_append, inductionHypothesis, Option.mem_toList, Option.map_eq_some_iff]
      constructor
      · rintro (⟨word, found, rfl⟩ | ⟨index, here, line_eq⟩)
        · exact ⟨0, congrArg some (LineReading.word?_eq_some_iff.1 found), rfl⟩
        · exact ⟨index + 1, here, by rw [line_eq, Nat.add_right_comm, Nat.add_assoc]⟩
      · rintro ⟨index, here, line_eq⟩
        cases index with
        | zero =>
            left
            refine ⟨entry.word, LineReading.word?_eq_some_iff.2 (Option.some.inj here), ?_⟩
            rw [Nat.add_zero] at line_eq
            rw [← line_eq]
        | succ index =>
            exact .inr ⟨index, here, by rw [line_eq, Nat.add_right_comm, Nat.add_assoc]⟩

/-- The numbers increase. -/
theorem pairwise_numbered (number : Nat) (readings : List LineReading) :
    (numbered number readings).Pairwise fun first second => first.line < second.line := by
  induction readings generalizing number with
  | nil => exact .nil
  | cons reading readings inductionHypothesis =>
      rw [numbered, List.pairwise_append]
      refine ⟨?_, inductionHypothesis _, ?_⟩
      · cases reading.word? <;> simp
      · intro first first_member second second_member
        obtain ⟨index, -, line_eq⟩ := mem_numbered_iff.1 second_member
        obtain ⟨word, -, rfl⟩ := Option.map_eq_some_iff.1 (Option.mem_toList.1 first_member)
        rw [line_eq]
        exact Nat.lt_of_lt_of_le (Nat.lt_succ_self number) (Nat.le_add_right _ _)

/-- The file with the instructions of lines that say this. -/
def ofReadings (readings : List LineReading) : ProgramFile :=
  ⟨(numbered 1 readings).toArray⟩

theorem instructions_ofReadings (readings : List LineReading) :
    (ofReadings readings).instructions = readings.filterMap LineReading.word? :=
  map_word_numbered 1 readings

theorem size_ofReadings (readings : List LineReading) :
    (ofReadings readings).size = (readings.filterMap LineReading.word?).length := by
  rw [← map_word_numbered 1, List.length_map]
  rfl

theorem ofReadings_append_skipped (readings : List LineReading) :
    ofReadings (readings ++ [.skipped]) = ofReadings readings := by
  rw [ofReadings, numbered_append, numbered, numbered, LineReading.word?, Option.map_none,
    Option.toList_none, List.append_nil, List.append_nil]
  rfl

theorem ofReadings_append_instruction (readings : List LineReading) (word : Word) :
    ofReadings (readings ++ [.instruction word]) =
      ⟨(ofReadings readings).entries.push ⟨word, readings.length + 1⟩⟩ := by
  rw [ofReadings, numbered_append, numbered, numbered, LineReading.word?, Option.map_some,
    Option.toList_some, List.append_nil, Nat.add_comm 1]
  exact congrArg mk (List.push_toArray _ _).symm

theorem mem_sourceLines_ofReadings_iff {readings : List LineReading} {number : Nat} :
    number ∈ (ofReadings readings).sourceLines ↔
      ∃ index word, readings[index]? = some (.instruction word) ∧ number = index + 1 := by
  rw [sourceLines, List.mem_map]
  constructor
  · rintro ⟨entry, member, rfl⟩
    obtain ⟨index, here, line_eq⟩ := mem_numbered_iff.1 member
    exact ⟨index, entry.word, here, by rw [line_eq, Nat.add_comm]⟩
  · rintro ⟨index, word, here, rfl⟩
    exact ⟨⟨word, index + 1⟩, mem_numbered_iff.2 ⟨index, here, Nat.add_comm _ _⟩, rfl⟩

theorem pairwise_sourceLines_ofReadings (readings : List LineReading) :
    (ofReadings readings).sourceLines.Pairwise (· < ·) :=
  List.pairwise_map.2 (pairwise_numbered 1 readings)

theorem length_sourceLines (file : ProgramFile) :
    file.sourceLines.length = file.instructions.length := by
  rw [sourceLines, instructions, List.length_map, List.length_map]

/-! ## One line after the other -/

/-- The file with a line taken in, by what the line says. -/
def enter (file : ProgramFile) (index : Nat) : LineReading → Except ProgramFileError ProgramFile
  | .unreadable => .error (.stream .invalidUtf8)
  | .skipped => .ok file
  | .refused cause => .error (.malformed (index + 1) cause)
  | .instruction word =>
      if file.size = romSize then .error .tooLarge
      else .ok ⟨file.entries.push ⟨word, index + 1⟩⟩

/-- Taking in a line depends on what it says alone. -/
theorem readLine_eq_enter (file : ProgramFile) (line : List UInt8) (index : Nat) :
    readLine file (line, index) = file.enter index (.of line) := by
  rw [LineReading.of]
  cases decoded : decodeLine line with
  | error cause =>
      obtain rfl : cause = .stream .invalidUtf8 := eq_of_decodeLine_eq_error decoded
      simp [readLine, decoded, enter, bind, Except.bind]
  | ok chars =>
      simp only [readLine, decoded, bind, Except.bind]
      cases instructionPart? chars with
      | none => rfl
      | some part =>
          cases read : Word.ofBinaryChars part with
          | error cause => simp [enter, read, throw, throwThe, MonadExceptOf.throw]
          | ok word => simp [enter, read, throw, throwThe, MonadExceptOf.throw, pure, Except.pure]

/-- The file with lines taken in one after the other. -/
def enterAll (readings : List LineReading) : Except ProgramFileError ProgramFile :=
  readings.zipIdx.foldlM (fun file entry => file.enter entry.2 entry.1) empty

theorem ofBytes_eq_enterAll (bytes : List UInt8) :
    ofBytes bytes = enterAll ((lines bytes).map .of) := by
  rw [ofBytes, enterAll, List.zipIdx_map, List.foldlM_map]
  congr 1
  funext file line
  exact file.readLine_eq_enter line.1 line.2

theorem enterAll_append_singleton (readings : List LineReading) (reading : LineReading) :
    enterAll (readings ++ [reading]) =
      (enterAll readings).bind fun file => file.enter readings.length reading := by
  rw [enterAll, List.zipIdx_append, List.foldlM_append, Nat.zero_add]
  exact congrArg (Except.bind (enterAll readings)) (funext fun file => bind_pure _)

theorem enterAll_of_prefix {readings : List LineReading} {error : ProgramFileError}
    (failed : enterAll readings = .error error) (rest : List LineReading) :
    enterAll (readings ++ rest) = .error error := by
  rw [enterAll] at failed
  rw [enterAll, List.zipIdx_append, List.foldlM_append, failed]
  rfl

/-- What has been read after `count` lines of which none offends. -/
theorem enterAll_take {readings : List LineReading} (count : Nat)
    (clean : ∀ index < count, ∀ error, ¬Offends readings index error) :
    enterAll (readings.take count) = .ok (ofReadings (readings.take count)) ∧
      ((readings.take count).filterMap LineReading.word?).length ≤ romSize := by
  induction count with
  | zero => exact ⟨rfl, Nat.zero_le _⟩
  | succ count inductionHypothesis =>
      obtain ⟨entered, fits⟩ :=
        inductionHypothesis fun index before => clean index (Nat.lt_succ_of_lt before)
      have clean := clean count (Nat.lt_succ_self count)
      cases here : readings[count]? with
      | none =>
          have past := List.getElem?_eq_none_iff.1 here
          rw [List.take_of_length_le past] at entered fits
          rw [List.take_of_length_le (Nat.le_succ_of_le past)]
          exact ⟨entered, fits⟩
      | some reading =>
          obtain ⟨inside, -⟩ := List.getElem?_eq_some_iff.1 here
          have length_eq : (readings.take count).length = count :=
            List.length_take_of_le inside.le
          rw [List.take_add_one, here, Option.toList_some, enterAll_append_singleton, entered,
            Except.bind, length_eq, List.filterMap_append, List.length_append]
          cases reading with
          | unreadable => exact absurd (.unreadable here) (clean _)
          | refused cause => exact absurd (.refused here) (clean _)
          | skipped => exact ⟨by rw [ofReadings_append_skipped]; rfl, fits⟩
          | instruction word =>
              have room : ((readings.take count).filterMap LineReading.word?).length < romSize :=
                Nat.lt_of_not_le fun full => clean _ (.tooLarge here full)
              refine ⟨?_, room⟩
              rw [enter, size_ofReadings, if_neg room.ne, ofReadings_append_instruction, length_eq]

theorem enterAll_of_clean {readings : List LineReading}
    (clean : ∀ index error, ¬Offends readings index error) :
    enterAll readings = .ok (ofReadings readings) ∧
      (readings.filterMap LineReading.word?).length ≤ romSize := by
  have entered := enterAll_take readings.length fun index _ error => clean index error
  rwa [List.take_length] at entered

/-- A line that offends is not taken in. -/
theorem enter_of_offends {readings : List LineReading} {index : Nat} {error : ProgramFileError}
    (offends : Offends readings index error)
    (fits : ((readings.take index).filterMap LineReading.word?).length ≤ romSize) :
    ∃ reading, readings[index]? = some reading ∧
      enter (ofReadings (readings.take index)) index reading = .error error := by
  cases offends with
  | unreadable here => exact ⟨_, here, rfl⟩
  | refused here => exact ⟨_, here, rfl⟩
  | tooLarge here full =>
      refine ⟨_, here, if_pos ?_⟩
      rw [size_ofReadings]
      exact Nat.le_antisymm fits full

theorem enterAll_of_firstOffence {readings : List LineReading} {index : Nat}
    {error : ProgramFileError} (offence : FirstOffence readings index error) :
    enterAll readings = .error error := by
  obtain ⟨entered, fits⟩ := enterAll_take index offence.first
  obtain ⟨reading, here, refused⟩ := enter_of_offends offence.offends fits
  obtain ⟨inside, -⟩ := List.getElem?_eq_some_iff.1 here
  have failed : enterAll (readings.take (index + 1)) = .error error := by
    rw [List.take_add_one, here, Option.toList_some, enterAll_append_singleton, entered,
      Except.bind, List.length_take_of_le inside.le, refused]
  have unread := enterAll_of_prefix failed (readings.drop (index + 1))
  rwa [List.take_append_drop] at unread

theorem exists_firstOffence {readings : List LineReading} {index : Nat} {error : ProgramFileError}
    (offends : Offends readings index error) : ∃ index error, FirstOffence readings index error := by
  induction index using Nat.strong_induction_on generalizing error with
  | _ index inductionHypothesis =>
      by_cases earlier : ∃ before < index, ∃ error, Offends readings before error
      · obtain ⟨before, is_before, error, offends⟩ := earlier
        exact inductionHypothesis before is_before offends
      · exact ⟨index, error, offends, fun before is_before error offends =>
          earlier ⟨before, is_before, error, offends⟩⟩

/-- A file is accepted exactly if none of its lines offends. -/
theorem enterAll_eq_ok_iff {readings : List LineReading} {file : ProgramFile} :
    enterAll readings = .ok file ↔
      (∀ index error, ¬Offends readings index error) ∧ ofReadings readings = file := by
  constructor
  · intro accepted
    have clean : ∀ index error, ¬Offends readings index error := by
      intro index error offends
      obtain ⟨_, error, offence⟩ := exists_firstOffence offends
      have refused := enterAll_of_firstOffence offence
      rw [accepted] at refused
      contradiction
    obtain ⟨entered, -⟩ := enterAll_of_clean clean
    exact ⟨clean, Except.ok.inj (entered.symm.trans accepted)⟩
  · rintro ⟨clean, rfl⟩
    exact (enterAll_of_clean clean).1

/-- What an accepted file is made of. -/
theorem eq_ofReadings_of_ofBytes {bytes : List UInt8} {file : ProgramFile}
    (accepted : ofBytes bytes = .ok file) :
    file = ofReadings ((lines bytes).map .of) ∧ file.instructions.length ≤ romSize := by
  rw [ofBytes_eq_enterAll] at accepted
  obtain ⟨clean, rfl⟩ := enterAll_eq_ok_iff.1 accepted
  obtain ⟨-, fits⟩ := enterAll_of_clean clean
  refine ⟨rfl, ?_⟩
  rwa [instructions_ofReadings]

/-- Reading a file goes by its lines and by what they say.  Both are determined
by the grammar.  The first line that offends decides the error; if none does,
the file has the instructions of the lines in order, each with the number of its
line. -/
theorem ofBytes_decided_by_lines (bytes : List UInt8) :
    ∃ pieces readings,
      (∀ others, FallsInto bytes others ↔ others = pieces) ∧
      (∀ others, List.Forall₂ Reads pieces others ↔ others = readings) ∧
      (∀ index error, FirstOffence readings index error → ofBytes bytes = .error error) ∧
      ((∀ index error, ¬Offends readings index error) →
        ∃ file, ofBytes bytes = .ok file ∧
          file.instructions = readings.filterMap LineReading.word? ∧
          (∀ number, number ∈ file.sourceLines ↔
            ∃ index word, readings[index]? = some (.instruction word) ∧ number = index + 1) ∧
          file.sourceLines.Pairwise (· < ·) ∧
          file.sourceLines.length = file.instructions.length ∧
          file.instructions.length ≤ romSize) := by
  refine ⟨lines bytes, (lines bytes).map .of, fun _ => fallsInto_iff, fun _ => forall₂_reads_iff,
    ?_, ?_⟩
  · intro index error offence
    rw [ofBytes_eq_enterAll, enterAll_of_firstOffence offence]
  · intro clean
    obtain ⟨entered, fits⟩ := enterAll_of_clean clean
    rw [← ofBytes_eq_enterAll] at entered
    refine ⟨_, entered, instructions_ofReadings _, ?_, pairwise_sourceLines_ofReadings _, ?_, ?_⟩
    · exact fun number => mem_sourceLines_ofReadings_iff
    · exact length_sourceLines _
    · rwa [instructions_ofReadings]

example : ofText "// two\r\n\u00a0\n0000000000000101 @5\n01" =
    .error (.malformed 4 (.wrongLength 2)) := by
  decide +kernel

end HackComputer.ProgramFile
