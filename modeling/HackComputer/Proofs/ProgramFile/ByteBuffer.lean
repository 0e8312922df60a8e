import HackComputer.Proofs.ProgramFile.RoundTrip
import HackComputer.Proofs.Text.Utf8
import HackComputer.Proofs.Word.Binary

/-!
# Writing into a buffer of bytes

A buffer of bytes is overwritten from its start until it is full.  It takes the first part
of what does not fit, and then says that it could not take all.  A line is written in
several pieces, so the buffer can fill up anywhere in it; but where a text is cut into
pieces does not matter, and what becomes of a program depends on its length and the size of
the buffer alone.
-/

namespace HackComputer

/-- A buffer of bytes that is overwritten from its start. -/
structure ByteBuffer where
  written : List UInt8
  /-- The bytes behind it, not yet overwritten. -/
  rest : List UInt8
  deriving DecidableEq, Repr

namespace ByteBuffer

/-- A buffer that is about to be overwritten. -/
def ofBytes (bytes : List UInt8) : ByteBuffer :=
  ⟨[], bytes⟩

/-- All the bytes of a buffer. -/
def contents (buffer : ByteBuffer) : List UInt8 :=
  buffer.written ++ buffer.rest

/-- Takes as many of `bytes` as there is room for, and says how many. -/
def put (buffer : ByteBuffer) (bytes : List UInt8) : Nat × ByteBuffer :=
  let count := min bytes.length buffer.rest.length
  (count, ⟨buffer.written ++ bytes.take count, buffer.rest.drop count⟩)

/-- Takes `bytes`, and fails if it has not taken all of them. -/
def putAll (buffer : ByteBuffer) (bytes : List UInt8) : Except StreamError Unit × ByteBuffer :=
  let (count, after) := buffer.put bytes
  (if count < bytes.length then .error .shortWrite else .ok (), after)

/-- Takes one piece after the other, up to the first that fails. -/
def putPieces (buffer : ByteBuffer) :
    List (List UInt8) → Except StreamError Unit × ByteBuffer
  | [] => (.ok (), buffer)
  | piece :: pieces =>
    match buffer.putAll piece with
    | (.ok (), after) => putPieces after pieces
    | (.error cause, after) => (.error cause, after)

variable (buffer : ByteBuffer) {bytes first : List UInt8}

theorem putAll_of_room (room : bytes.length ≤ buffer.rest.length) :
    buffer.putAll bytes = (.ok (), ⟨buffer.written ++ bytes, buffer.rest.drop bytes.length⟩) := by
  simp only [putAll, put, Nat.min_eq_left room, Nat.lt_irrefl, if_false, List.take_length]

theorem putAll_of_full (full : buffer.rest.length < bytes.length) :
    buffer.putAll bytes =
      (.error .shortWrite, ⟨buffer.written ++ bytes.take buffer.rest.length, []⟩) := by
  simp only [putAll, put, Nat.min_eq_right full.le, full, if_true, List.drop_length]

/-- What follows bytes that fit is taken as if it came alone. -/
theorem putAll_append_of_room (room : first.length ≤ buffer.rest.length) (second : List UInt8) :
    buffer.putAll (first ++ second) =
      putAll ⟨buffer.written ++ first, buffer.rest.drop first.length⟩ second := by
  let after : ByteBuffer := ⟨buffer.written ++ first, buffer.rest.drop first.length⟩
  have after_length : after.rest.length = buffer.rest.length - first.length := List.length_drop
  have append_length : (first ++ second).length = first.length + second.length :=
    List.length_append
  change buffer.putAll (first ++ second) = after.putAll second
  by_cases fits : second.length ≤ after.rest.length
  · have all_fit : (first ++ second).length ≤ buffer.rest.length := by omega
    rw [after.putAll_of_room fits, buffer.putAll_of_room all_fit, List.append_assoc,
      List.drop_drop, append_length]
  · have full : after.rest.length < second.length := Nat.lt_of_not_le fits
    have all_full : buffer.rest.length < (first ++ second).length := by omega
    rw [after.putAll_of_full full, buffer.putAll_of_full all_full, List.take_append,
      List.take_of_length_le room, List.append_assoc, after_length]

/-- What follows bytes that do not fit is lost. -/
theorem putAll_append_of_full (full : buffer.rest.length < first.length) (second : List UInt8) :
    buffer.putAll (first ++ second) = buffer.putAll first := by
  have full_append : buffer.rest.length < (first ++ second).length := by
    rw [List.length_append]
    omega
  rw [putAll_of_full _ full, putAll_of_full _ full_append, List.take_append_of_le_length full.le]

/-- It does not matter how bytes are cut into pieces. -/
theorem putPieces_eq (pieces : List (List UInt8)) :
    buffer.putPieces pieces = buffer.putAll pieces.flatten := by
  induction pieces generalizing buffer with
  | nil =>
      rw [putPieces, List.flatten_nil, putAll_of_room _ (Nat.zero_le _), List.append_nil]
      rfl
  | cons piece pieces inductionHypothesis =>
      rw [putPieces, List.flatten_cons]
      by_cases room : piece.length ≤ buffer.rest.length
      · rw [putAll_append_of_room _ room, putAll_of_room _ room]
        exact inductionHypothesis _
      · have full : buffer.rest.length < piece.length := Nat.lt_of_not_le room
        rw [putAll_append_of_full _ full, putAll_of_full _ full]

end ByteBuffer

namespace ProgramFile

/-! ## The lines as bytes -/

/-- The byte of the digit that shows a bit. -/
def digitByte (bit : Bool) : UInt8 :=
  if bit then 0x31 else 0x30

/-- The line of an instruction as bytes: a digit for each bit, the most significant first,
and a line feed. -/
def lineBytes (word : Word) : List UInt8 :=
  (List.ofFn fun index : Fin 16 => digitByte (word.getMsbD index)) ++ [0x0A]

/-- The pieces that a line is written in: the zeros in front one by one, the number in base
two, and the end of the line. -/
def linePieces (word : Word) : List (List Char) :=
  let digits := Nat.toDigits 2 word.toNat
  List.replicate (16 - digits.length) ['0'] ++ [digits, ['\n']]

/-- A text with one character for each byte, of the same code. -/
def byteText (bytes : List UInt8) : String :=
  String.ofList (bytes.map fun byte => Char.ofNat byte.toNat)

section Lines

variable (word : Word)

theorem toList_lineText : (lineText word).toList = word.binaryDigits ++ ['\n'] := by
  rw [lineText, String.toList_append, Word.toList_toBinary]
  rfl

/-- The pieces of a line are all of it. -/
theorem flatten_linePieces : (linePieces word).flatten = (lineText word).toList := by
  rw [toList_lineText, Word.binaryDigits_eq_zeros_append_toDigits]
  simp [linePieces]

theorem utf8_lineText : Text.utf8 (lineText word).toList = lineBytes word := by
  have digit_eq (bit : Bool) :
      String.utf8EncodeChar (Word.binaryDigit bit) = [digitByte bit] := by
    cases bit <;> rfl
  have digits_eq : Text.utf8 word.binaryDigits =
      List.ofFn fun index : Fin 16 => digitByte (word.getMsbD index) := by
    simp only [Text.utf8, Word.binaryDigits, List.flatMap_def, List.map_ofFn, Function.comp_def,
      digit_eq]
    rfl
  rw [toList_lineText, Text.utf8_append, digits_eq]
  rfl

theorem byteText_lineBytes : byteText (lineBytes word) = lineText word := by
  have digit_eq (bit : Bool) : Char.ofNat (digitByte bit).toNat = Word.binaryDigit bit := by
    cases bit <;> rfl
  rw [← String.toList_inj, toList_lineText, byteText, String.toList_ofList, lineBytes,
    List.map_append, List.map_ofFn, Word.binaryDigits]
  simp only [Function.comp_def, digit_eq]
  rfl

theorem length_lineBytes : (lineBytes word).length = 17 := by
  rw [lineBytes, List.length_append, List.length_ofFn]
  rfl

end Lines

theorem length_flatMap_lineBytes (words : List Word) :
    (words.flatMap lineBytes).length = 17 * words.length := by
  induction words with
  | nil => rfl
  | cons word words inductionHypothesis =>
      rw [List.flatMap_cons, List.length_append, inductionHypothesis, length_lineBytes,
        List.length_cons, Nat.mul_succ, Nat.add_comm]

theorem length_byteText (bytes : List UInt8) : (byteText bytes).length = bytes.length := by
  rw [byteText, String.length_ofList, List.length_map]

theorem drop_byteText (bytes : List UInt8) (count : Nat) :
    String.ofList ((byteText bytes).toList.drop count) = byteText (bytes.drop count) := by
  rw [byteText, String.toList_ofList, byteText, List.map_drop]

theorem byteText_append (first second : List UInt8) :
    byteText (first ++ second) = byteText first ++ byteText second := by
  rw [byteText, List.map_append, String.ofList_append]
  rfl

theorem byteText_flatMap_lineBytes (words : List Word) :
    byteText (words.flatMap lineBytes) = text words := by
  induction words with
  | nil => rfl
  | cons word words inductionHypothesis =>
      rw [List.flatMap_cons, byteText_append, byteText_lineBytes, inductionHypothesis, text_cons]

/-! ## Writing them -/

/-- Writes the lines of a list of instructions, piece by piece, up to the first failure. -/
def writeInto (buffer : ByteBuffer) : List Word → Except ProgramFileError Unit × ByteBuffer
  | [] => (.ok (), buffer)
  | word :: words =>
    match buffer.putPieces ((linePieces word).map Text.utf8) with
    | (.ok (), after) => writeInto after words
    | (.error cause, after) => (.error (.stream cause), after)

theorem putPieces_linePieces (buffer : ByteBuffer) (word : Word) :
    buffer.putPieces ((linePieces word).map Text.utf8) = buffer.putAll (lineBytes word) := by
  have utf8_flatten (pieces : List (List Char)) :
      (pieces.map Text.utf8).flatten = Text.utf8 pieces.flatten := by
    rw [Text.utf8, List.flatMap_def, List.map_flatten, List.flatten_flatten, List.map_map]
    rfl
  rw [ByteBuffer.putPieces_eq, utf8_flatten, flatten_linePieces, utf8_lineText]

/-- Line by line is all at once. -/
theorem writeInto_eq (words : List Word) (buffer : ByteBuffer) :
    writeInto buffer words =
      ((buffer.putAll (words.flatMap lineBytes)).1.mapError .stream,
        (buffer.putAll (words.flatMap lineBytes)).2) := by
  induction words generalizing buffer with
  | nil =>
      rw [writeInto, List.flatMap_nil, ByteBuffer.putAll_of_room _ (Nat.zero_le _), List.append_nil]
      rfl
  | cons word words inductionHypothesis =>
      rw [writeInto, List.flatMap_cons, putPieces_linePieces]
      by_cases room : (lineBytes word).length ≤ buffer.rest.length
      · rw [ByteBuffer.putAll_append_of_room _ room, ByteBuffer.putAll_of_room _ room]
        exact inductionHypothesis _
      · have full : buffer.rest.length < (lineBytes word).length := Nat.lt_of_not_le room
        rw [ByteBuffer.putAll_append_of_full _ full, ByteBuffer.putAll_of_full _ full]
        rfl

/-- A sink without room for all the lines refuses one of them. -/
theorem foldlM_write_of_full {words : List Word} {sink : Sink}
    (full : sink.rest.length < 17 * words.length) :
    words.foldlM (fun sink word => sink.write (lineText word)) sink = .error .shortWrite := by
  induction words generalizing sink with
  | nil => exact absurd full (Nat.not_lt_zero _)
  | cons word words inductionHypothesis =>
      rw [List.foldlM_cons, Sink.write, length_lineText]
      split
      · rename_i room
        have full_after : (sink.rest.drop 17).length < 17 * words.length := by
          rw [List.length_take] at room
          rw [List.length_cons] at full
          rw [List.length_drop]
          omega
        exact inductionHypothesis full_after
      · rfl

theorem writeTo_of_full {words : List Word} {buffer : String}
    (full : buffer.length < 17 * words.length) :
    writeTo (.ofBuffer buffer) words = .error (.stream .shortWrite) := by
  rw [← String.length_toList] at full
  rw [writeTo, foldlM_write_of_full full]

/-- A program is written if and only if there is a byte of the buffer for each digit and
each line end, seventeen for an instruction.  If it is, the buffer begins with its lines and
is unchanged behind them; if not, the writer is told so, and the buffer is full of what went
in.  A sink of as many characters gives the same report, and after a success holds the same. -/
theorem written_iff_room (words : List Word) (bytes : List UInt8) :
    let lines := words.flatMap lineBytes
    let written := writeInto (.ofBytes bytes) words
    (written.1 = .ok () ↔ 17 * words.length ≤ bytes.length) ∧
    (written.1 = .ok () → written.2.contents = lines ++ bytes.drop (17 * words.length)) ∧
    (written.1 ≠ .ok () → written.1 = .error (.stream .shortWrite) ∧
      written.2.contents = lines.take bytes.length) ∧
    (writeTo (.ofBuffer (byteText bytes)) words).map Sink.contents =
      written.1.map fun () => byteText written.2.contents := by
  intro lines written
  have length_eq : lines.length = 17 * words.length := length_flatMap_lineBytes words
  have written_eq : written = _ := writeInto_eq words (.ofBytes bytes)
  by_cases room : 17 * words.length ≤ bytes.length
  · rw [ByteBuffer.putAll_of_room (.ofBytes bytes) (length_eq.trans_le room)] at written_eq
    have contents_eq : written.2.contents = lines ++ bytes.drop (17 * words.length) := by
      rw [written_eq, ← length_eq]
      rfl
    refine ⟨iff_of_true (congrArg Prod.fst written_eq) room, fun _ => contents_eq,
      fun failed => absurd (congrArg Prod.fst written_eq) failed, ?_⟩
    rw [writeTo_of_room (by rwa [length_byteText]), contents_eq, written_eq, byteText_append,
      byteText_flatMap_lineBytes, ← drop_byteText]
    rfl
  · have full : bytes.length < 17 * words.length := Nat.lt_of_not_le room
    rw [ByteBuffer.putAll_of_full (.ofBytes bytes) (full.trans_eq length_eq.symm)] at written_eq
    have failed : written.1 = .error (.stream .shortWrite) := congrArg Prod.fst written_eq
    have contents_eq : written.2.contents = lines.take bytes.length := by
      rw [written_eq]
      exact List.append_nil _
    rw [writeTo_of_full (by rwa [length_byteText]), failed]
    exact ⟨iff_of_false nofun room, nofun, fun _ => ⟨rfl, contents_eq⟩, rfl⟩

end ProgramFile

end HackComputer
