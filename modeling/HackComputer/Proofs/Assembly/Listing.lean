import HackComputer.Proofs.Assembly.Disassembly
import HackComputer.Proofs.Word.Binary
import Mathlib.Data.List.DropRight

/-!
# Listings

A listing falls into its header and one line for each word, since no instruction has the
end of a line in its text.  However wide the address and the instruction are, the last
sixteen characters of a line are the digits of its word, so that the words are read back
from the lines.
-/

namespace HackComputer.Assembly

/-! ## Instruction texts have no line ends -/

theorem lacks_newline_toDigits (number : Nat) : Lacks ['\n'] (Nat.toDigits 10 number) := by
  intro char digit newline
  have decimal := Nat.isDigit_of_mem_toDigits (by decide) (by decide) digit
  rw [List.mem_singleton.1 newline] at decimal
  contradiction

theorem lacks_newline_storePart (dest : Dest) : Lacks ['\n'] (storePart dest).toList := by
  obtain ⟨-, -, lacks_names⟩ := destText_spec dest
  rw [storePart]
  split
  · exact fun char member => absurd member List.not_mem_nil
  · rw [String.toList_append, lacks_append]
    exact ⟨lacks_names.mono (by decide), by decide⟩

theorem lacks_newline_jumpPart (jump : Jump) : Lacks ['\n'] (jumpPart jump).toList := by
  rw [jumpPart]
  rcases jumpText?_spec jump with ⟨no_text, -⟩ | ⟨mnemonic, -, text_eq, -, -, lacks_jump⟩
  · rw [no_text]
    exact fun char member => absurd member List.not_mem_nil
  · rw [text_eq]
    exact String.toList_append ▸ lacks_append.2 ⟨by decide, lacks_jump.mono (by decide)⟩

theorem lacks_newline_text (instruction : Instruction) :
    Lacks ['\n'] (text instruction).toList := by
  cases instruction with
  | address literal =>
      rw [toList_text_address, lacks_cons, Nat.toString_eq_repr, Nat.toList_repr]
      exact ⟨by decide, lacks_newline_toDigits _⟩
  | compute fields =>
      obtain ⟨-, lacks⟩ := compText_spec fields.alu fields.ySource
      rw [toList_text_compute, lacks_append, lacks_append]
      exact ⟨lacks_newline_storePart _, lacks.mono (by decide), lacks_newline_jumpPart _⟩

/-! ## Lines -/

/-- The characters of a line, without its end. -/
def lineChars (address : Nat) (word : Word) : List Char :=
  (Text.zeroPadded 5 address).toList ++ ": ".toList ++
    (Text.alignLeft 16 (disassemble word)).toList ++ " // ".toList ++ word.binaryDigits

theorem toList_listingLine (address : Nat) (word : Word) :
    (listingLine address word).toList = lineChars address word ++ ['\n'] := by
  simp only [listingLine, String.toList_append, Word.toList_toBinary]
  rfl

theorem lacks_newline_lineChars (address : Nat) (word : Word) :
    Lacks ['\n'] (lineChars address word) := by
  have lacks_fill (count : Nat) {char : Char} (fills : char ∉ ['\n']) :
      Lacks ['\n'] (List.replicate count char) :=
    fun _ member => List.eq_of_mem_replicate member ▸ fills
  have lacks_digits : Lacks ['\n'] word.binaryDigits := by
    intro char digit
    rcases Word.isBinaryDigit_iff.1 (Word.isBinaryDigit_of_mem_binaryDigits digit) with rfl | rfl
    · decide
    · decide
  rw [lineChars, Text.toList_zeroPadded, Text.toList_alignLeft]
  simp only [lacks_append]
  exact ⟨⟨⟨⟨⟨lacks_fill _ (by decide), lacks_newline_toDigits address⟩, by decide⟩,
    lacks_newline_text _, lacks_fill _ (by decide)⟩, by decide⟩, lacks_digits⟩

/-- The line shows a word at an address: first the address in decimal, after zeros up to
five digits; then the instruction, before blanks up to sixteen characters; and at the end
sixteen characters that are read as the word. -/
structure ShowsWord (address : Nat) (word : Word) (line : List Char) : Prop where
  columns : ∃ zeros blanks,
    line = List.replicate zeros '0' ++ Nat.toDigits 10 address ++ ": ".toList ++
      (disassemble word).toList ++ List.replicate blanks ' ' ++ " // ".toList ++ line.rtake 16 ∧
    zeros + (Nat.toDigits 10 address).length = max 5 (Nat.toDigits 10 address).length ∧
    (disassemble word).length + blanks = max 16 (disassemble word).length
  word_eq : Word.ofBinary (String.ofList (line.rtake 16)) = .ok word

theorem rtake_lineChars (address : Nat) (word : Word) :
    (lineChars address word).rtake 16 = word.binaryDigits := by
  rw [lineChars, List.rtake, List.length_append, Word.length_binaryDigits, Nat.add_sub_cancel,
    List.drop_left]

theorem showsWord_lineChars (address : Nat) (word : Word) :
    ShowsWord address word (lineChars address word) where
  columns := by
    refine ⟨5 - (Nat.toDigits 10 address).length, 16 - (disassemble word).length, ?_, ?_, ?_⟩
    · rw [rtake_lineChars, lineChars, Text.toList_zeroPadded, Text.toList_alignLeft]
      simp only [List.append_assoc]
    · omega
    · omega
  word_eq := by
    rw [rtake_lineChars, Word.ofBinary, String.toList_ofList, Word.ofBinaryChars_binaryDigits]

/-! ## The whole listing -/

/-- The lines of the header. -/
def headerLines : List (List Char) :=
  ["// Hack Disassembly".toList, "// ----------------".toList, []]

/-- The lines of the words. -/
def wordLines (words : List Word) : List (List Char) :=
  words.zipIdx.map fun entry => lineChars entry.2 entry.1

/-- A text that is made by ending lines falls into these lines, and nothing behind the
last end. -/
theorem splitOn_flatMap_ended {lines : List (List Char)}
    (unbroken : ∀ line ∈ lines, Lacks ['\n'] line) :
    (lines.flatMap (· ++ ['\n'])).splitOn '\n' = lines ++ [[]] := by
  induction lines with
  | nil => rfl
  | cons line lines inductionHypothesis =>
      obtain ⟨here, behind⟩ := List.forall_mem_cons.1 unbroken
      rw [List.flatMap_cons, List.append_assoc, List.singleton_append,
        List.splitOn_append_cons_self_of_not_mem (here.not_mem List.mem_cons_self),
        inductionHypothesis behind]
      rfl

theorem toList_listing (words : List Word) :
    (listing words).toList = (headerLines ++ wordLines words).flatMap (· ++ ['\n']) := by
  rw [listing, String.toList_append, String.toList_join, List.flatMap_append, wordLines,
    List.flatMap_map, List.flatMap_map]
  simp only [toList_listingLine]
  rfl

theorem splitOn_listing (words : List Word) :
    (listing words).toList.splitOn '\n' = headerLines ++ wordLines words ++ [[]] := by
  rw [toList_listing]
  apply splitOn_flatMap_ended
  rw [List.forall_mem_append]
  refine ⟨by decide +kernel, fun line shown => ?_⟩
  obtain ⟨entry, -, rfl⟩ := List.mem_map.1 shown
  exact lacks_newline_lineChars _ _

/-- The ends of the lines are read as the words. -/
theorem map_read_wordLines (words : List Word) :
    (wordLines words).map (fun line => Word.ofBinary (String.ofList (line.rtake 16))) =
      words.map .ok := by
  have read_eq : ((fun line => Word.ofBinary (String.ofList (line.rtake 16))) ∘
      fun entry : Word × Nat => lineChars entry.2 entry.1) = Except.ok ∘ Prod.fst := by
    funext entry
    rw [Function.comp_apply, (showsWord_lineChars entry.2 entry.1).word_eq, Function.comp_apply]
  rw [wordLines, List.map_map, read_eq, ← List.map_map, List.zipIdx_map_fst]

theorem eq_of_listing_eq {words words' : List Word} (same : listing words = listing words') :
    words = words' := by
  have all_lines_eq : headerLines ++ wordLines words ++ [[]] =
      headerLines ++ wordLines words' ++ [[]] := by
    rw [← splitOn_listing, ← splitOn_listing, same]
  have lines_eq : wordLines words = wordLines words' :=
    List.append_cancel_left (List.append_cancel_right all_lines_eq)
  have read_eq : words.map .ok = words'.map (.ok : Word → Except BinaryError Word) := by
    rw [← map_read_wordLines, ← map_read_wordLines, lines_eq]
  exact (List.map_inj_right fun _ _ => Except.ok.inj).1 read_eq

/-- A listing has two header lines, an empty line and one line for each word, in order,
each of which shows its word at its address; and the last line is ended.  No instruction
has the end of a line in its text.  So a listing determines its words. -/
theorem listing_shows_every_word :
    (∀ words : List Word, ∃ lines : List (List Char),
      (listing words).toList.splitOn '\n' =
        ["// Hack Disassembly".toList, "// ----------------".toList, []] ++ lines ++ [[]] ∧
      List.Forall₂ (fun entry line => ShowsWord entry.2 entry.1 line) words.zipIdx lines) ∧
    (∀ word, '\n' ∉ (disassemble word).toList) ∧
    ∀ words words' : List Word, listing words = listing words' ↔ words = words' := by
  refine ⟨?_, ?_, ?_⟩
  · intro words
    have shown : List.Forall₂ (fun entry line => ShowsWord entry.2 entry.1 line) words.zipIdx
        (wordLines words) := by
      rw [wordLines, List.forall₂_map_right_iff, List.forall₂_same]
      exact fun entry _ => showsWord_lineChars entry.2 entry.1
    exact ⟨wordLines words, splitOn_listing words, shown⟩
  · exact fun word => (lacks_newline_text (.decode word)).not_mem List.mem_cons_self
  · exact fun words words' => ⟨eq_of_listing_eq, congrArg listing⟩

/-- An instruction that is wider than its column, at an address that is wider than its. -/
example : lineChars 100000 0xFAFD = "100000: AMD=alu(101011,M);JNE // 1111101011111101".toList := by
  decide +kernel

end HackComputer.Assembly
