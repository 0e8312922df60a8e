import HackComputer.Json.Writer
import HackComputer.Proofs.Json.Spelling

/-!
# What is written is spelled

Each piece of text that the writer appends is a token or white space (`Written`), so that
what is written for a value is one of its texts, in both layouts, and is read as the value.
A string is written character by character: for each there is one text, which may be an
escape.
-/

namespace HackComputer.Json

/-! ## Numbers -/

theorem toDigits_ne_zero {number : Nat} (positive : 0 < number) :
    Nat.toDigits 10 number ≠ ['0'] := by
  intro same
  have value_eq : Nat.ofDigitChars 10 (Nat.toDigits 10 number) 0 = number :=
    Nat.ofDigitChars_ten_toDigits
  rw [same] at value_eq
  exact Nat.ne_of_gt positive value_eq.symm

theorem head?_toDigits {number : Nat} (positive : 0 < number) :
    (Nat.toDigits 10 number).head? ≠ some '0' := by
  induction number using Nat.strongRecOn with
  | ind number inductionHypothesis =>
      by_cases small : number < 10
      · have single := toDigits_ne_zero positive
        rw [Nat.toDigits_of_lt_base small] at single ⊢
        intro zero
        exact single (congrArg (fun char => [char]) (Option.some.inj zero))
      · have large : 10 ≤ number := Nat.le_of_not_lt small
        rw [Nat.toDigits_of_base_le (by decide) large,
          List.head?_append_of_ne_nil _ Nat.toDigits_ne_nil]
        exact inductionHypothesis (number / 10) (by omega) (by omega)

theorem isWhole_toDigits (number : Nat) : IsWhole (Nat.toDigits 10 number) := by
  refine ⟨⟨Nat.toDigits_ne_nil, fun char member => ?_⟩, fun zero => ?_⟩
  · exact Nat.isDigit_of_mem_toDigits (by decide) (by decide) member
  · cases number with
    | zero => rfl
    | succ number => exact absurd zero (head?_toDigits (Nat.succ_pos number))

theorem numberText_toString (value : Int) :
    NumberText (.integer value) (toString value).toList := by
  cases value with
  | ofNat number =>
      have digits_eq : (toString (Int.ofNat number)).toList = Nat.toDigits 10 number :=
        Nat.toList_repr
      have spelled := NumberText.nonneg (isWhole_toDigits number)
      rw [Nat.ofDigitChars_ten_toDigits] at spelled
      rw [digits_eq]
      exact spelled
  | negSucc number =>
      have digits_eq : (toString (Int.negSucc number)).toList =
          '-' :: Nat.toDigits 10 (number + 1) := by
        change ("-" ++ Nat.repr (number + 1)).toList = _
        rw [String.toList_append, Nat.toList_repr]
        rfl
      have spelled := NumberText.negative (isWhole_toDigits (number + 1))
        (toDigits_ne_zero (Nat.succ_pos number))
      rw [Nat.ofDigitChars_ten_toDigits] at spelled
      rw [digits_eq]
      exact spelled

/-- What is written for a number that is no integer. -/
theorem numberText_half : NumberText .real "0.5".toList := by
  exact @NumberText.real false ['0'] ['.', '5'] [] (.singleton rfl) (.present (.singleton rfl))
    .absent (List.cons_ne_nil _ _)

/-! ## Strings -/

/-- What is written in a string for a character. -/
def charText (char : Char) : List Char :=
  (escape? char).elim [char] String.toList

theorem toList_pushChar (out : String) (char : Char) :
    (pushChar out char).toList = out.toList ++ charText char := by
  rw [pushChar, charText]
  cases escape? char with
  | none => exact String.toList_push char
  | some replacement => exact String.toList_append

theorem toList_foldl_pushChar (out : String) (chars : List Char) :
    (chars.foldl pushChar out).toList = out.toList ++ chars.flatMap charText := by
  induction chars generalizing out with
  | nil => rw [List.foldl_nil, List.flatMap_nil, List.append_nil]
  | cons char chars inductionHypothesis =>
      rw [List.foldl_cons, inductionHypothesis, toList_pushChar, List.append_assoc,
        List.flatMap_cons]

/-- The code of a control character is no half of a pair. -/
theorem Piece.ofCode_of_lt {char : Char} (control : char < ' ') :
    ofCode (BitVec.ofNat 16 char.toNat).toNat = .char char := by
  have small : char.toNat < 32 := control
  have code_eq : (BitVec.ofNat 16 char.toNat).toNat = char.toNat :=
    Nat.mod_eq_of_lt (Nat.lt_trans small (by decide))
  have not_leading : isLeadingHalf char.toNat = false := by
    rw [isLeadingHalf, Bool.and_eq_false_iff, decide_eq_false_iff_not]
    exact .inl (by omega)
  have not_trailing : isTrailingHalf char.toNat = false := by
    rw [isTrailingHalf, Bool.and_eq_false_iff, decide_eq_false_iff_not]
    exact .inl (by omega)
  rw [code_eq, ofCode, not_leading, not_trailing, Char.ofNat_toNat]
  rfl

/-- The escape of a word is a text of its piece. -/
theorem pieceText_hexDigits (word : Word) :
    PieceText (.ofCode word.toNat) ('\\' :: 'u' :: word.hexDigits) := by
  have bound := word.isLt
  have digits_eq : 16 * (16 * (16 * (word.toNat / 0x1000) + word.toNat / 0x100 % 16) +
      word.toNat / 0x10 % 16) + word.toNat % 16 = word.toNat := by
    omega
  have digit_eq (digit : Nat) (small : digit < 16) : hexDigit? digit.digitChar = some digit := by
    interval_cases digit <;> rfl
  rw [← digits_eq]
  exact .code (digit_eq _ (by omega)) (digit_eq _ (by omega)) (digit_eq _ (by omega))
    (digit_eq _ (by omega))

/-- What is written for a character is one of its texts. -/
theorem pieceText_charText (char : Char) : PieceText (.char char) (charText char) := by
  by_cases short : char ∈ ['"', '\\', '\x08', '\x0c', '\n', '\r', '\t']
  · simp only [List.mem_cons, List.not_mem_nil, or_false] at short
    rcases short with rfl | rfl | rfl | rfl | rfl | rfl | rfl <;> exact .short rfl
  · simp only [List.mem_cons, List.not_mem_nil, or_false, not_or] at short
    by_cases control : char < ' '
    · have text_eq : charText char = '\\' :: 'u' :: Word.hexDigits (.ofNat 16 char.toNat) := by
        simp only [charText, escape?, short, control, if_true, if_false, Option.elim_some,
          String.toList_append, String.toList_ofList]
        rfl
      rw [text_eq, ← Piece.ofCode_of_lt control]
      exact pieceText_hexDigits _
    · have text_eq : charText char = [char] := by
        simp only [charText, escape?, short, control, if_false, Option.elim_none]
      rw [text_eq]
      exact .plain control short.1 short.2.1

theorem contents?_map_char (chars : List Char) : contents? (chars.map .char) = some chars := by
  induction chars with
  | nil => rfl
  | cons char chars inductionHypothesis =>
      rw [List.map_cons, contents?, inductionHypothesis]
      rfl

theorem quotedText_quoted (contents : Option String) :
    QuotedText contents (quoted contents).toList := by
  cases contents with
  | none =>
      refine ⟨[.half 0xD800], [['\\', 'u', 'd', '8', '0', '0']], ?_, rfl, rfl⟩
      exact .cons (@PieceText.code 'd' '8' '0' '0' _ _ _ _ rfl rfl rfl rfl) .nil
  | some contents =>
      refine ⟨contents.toList.map .char, contents.toList.map charText, ?_, ?_, ?_⟩
      · rw [List.forall₂_map_left_iff, List.forall₂_map_right_iff, List.forall₂_same]
        exact fun char _ => pieceText_charText char
      · rw [contents?_map_char, Option.map_some, String.ofList_toList]
      · rw [quoted, String.toList_push, toList_foldl_pushChar, List.flatMap_def]
        rfl

/-! ## Texts -/

/-- The text that has been written spells these tokens. -/
def Written (out : String) (tokens : List Token) : Prop :=
  SpellsTokens tokens out.toList

namespace Written

variable {out text : String} {read : List Token} {token : Token} (written : Written out read)

include written

theorem append (spelled : TokenText token text.toList) :
    Written (out ++ text) (read ++ [token]) := by
  rw [Written, String.toList_append]
  exact written.append_token spelled

theorem mark {char : Char} (text_eq : text.toList = [char])
    (stands : punctuation? char = some token) : Written (out ++ text) (read ++ [token]) :=
  written.append (text_eq ▸ .mark stands)

theorem blanks (blank : ∀ char ∈ text.toList, isSpace char = true) : Written (out ++ text) read := by
  rw [Written, String.toList_append]
  exact written.append_blanks blank

theorem lineBreak (layout : Layout) (depth : Nat) :
    Written (out ++ layout.lineBreak depth) read := by
  refine written.blanks fun char member => ?_
  cases layout with
  | compact => exact absurd member List.not_mem_nil
  | indented =>
      simp only [Layout.lineBreak, String.toList_append, List.mem_append, String.toList_ofList,
        List.mem_replicate] at member
      rcases member with line_end | ⟨-, rfl⟩
      · rw [List.mem_singleton.1 line_end]
        rfl
      · rfl

/-- A name and what stands before its value. -/
theorem name (layout : Layout) (name : Option String) :
    Written (out ++ quoted name ++ layout.colon) (read ++ [.text name] ++ [.colon]) := by
  have named := written.append (.text (quotedText_quoted name))
  cases layout with
  | compact => exact named.mark rfl rfl
  | indented =>
      have marked : Written (out ++ quoted name ++ ":") _ := named.mark rfl rfl
      have blank : ∀ char ∈ " ".toList, isSpace char = true := List.forall_mem_singleton.2 rfl
      have spaced : Written (out ++ quoted name ++ ":" ++ " ") _ := marked.blanks blank
      rw [String.append_assoc] at spaced
      exact spaced

end Written

mutual

/-- The text of a value spells the value's tokens. -/
theorem written_write (layout : Layout) (depth : Nat) {out : String} {read : List Token}
    (written : Written out read) : ∀ value : Json,
    Written (write layout depth out value) (read ++ value.tokens)
  | .null => written.append (.keyword rfl)
  | .bool true => written.append (.keyword rfl)
  | .bool false => written.append (.keyword rfl)
  | .integer value => written.append (.number (numberText_toString value))
  | .real => written.append (.number numberText_half)
  | .text contents => written.append (.text (quotedText_quoted contents))
  | .array [] => by
      have opened : Written (out ++ "[") (read ++ [.openArray]) := written.mark rfl rfl
      have closed : Written (out ++ "[" ++ "]") (read ++ [.openArray] ++ [.closeArray]) :=
        opened.mark rfl rfl
      rw [String.append_assoc, List.append_assoc] at closed
      exact closed
  | .array (item :: items) => by
      have opened : Written (out ++ "[") (read ++ [.openArray]) := written.mark rfl rfl
      have first := written_write layout (depth + 1) (opened.lineBreak layout (depth + 1)) item
      have closed := written_writeItems layout depth first items
      rw [List.append_assoc, List.append_assoc] at closed
      exact closed
  | .object [] => by
      have opened : Written (out ++ "\x7b") (read ++ [.openObject]) := written.mark rfl rfl
      have closed : Written (out ++ "\x7b" ++ "\x7d") (read ++ [.openObject] ++ [.closeObject]) :=
        opened.mark rfl rfl
      rw [String.append_assoc, List.append_assoc] at closed
      exact closed
  | .object ((name, value) :: members) => by
      have opened : Written (out ++ "\x7b") (read ++ [.openObject]) := written.mark rfl rfl
      have named := (opened.lineBreak layout (depth + 1)).name layout name
      have first := written_write layout (depth + 1) named value
      have closed := written_writeMembers layout depth first members
      rw [List.append_assoc, List.append_assoc, List.append_assoc, List.append_assoc] at closed
      exact closed

/-- The text of the remaining items and the end of an array. -/
theorem written_writeItems (layout : Layout) (depth : Nat) {out : String} {read : List Token}
    (written : Written out read) : ∀ items : List Json,
    Written (writeItems layout depth out items) (read ++ itemTokens items)
  | [] => (written.lineBreak layout depth).mark rfl rfl
  | item :: items => by
      have comma : Written (out ++ ",") (read ++ [.comma]) := written.mark rfl rfl
      have next := comma.lineBreak layout (depth + 1)
      have closed := written_writeItems layout depth (written_write layout (depth + 1) next item) items
      rw [List.append_assoc, List.append_assoc] at closed
      exact closed

/-- The text of the remaining members and the end of an object. -/
theorem written_writeMembers (layout : Layout) (depth : Nat) {out : String} {read : List Token}
    (written : Written out read) : ∀ members : List (Option String × Json),
    Written (writeMembers layout depth out members) (read ++ memberTokens members)
  | [] => (written.lineBreak layout depth).mark rfl rfl
  | (name, value) :: members => by
      have comma : Written (out ++ ",") (read ++ [.comma]) := written.mark rfl rfl
      have named := (comma.lineBreak layout (depth + 1)).name layout name
      have first := written_write layout (depth + 1) named value
      have closed := written_writeMembers layout depth first members
      rw [List.append_assoc, List.append_assoc, List.append_assoc, List.append_assoc] at closed
      exact closed

end

/-- What is written for a value is one of its texts. -/
theorem spells_render (layout : Layout) (value : Json) : Spells value (value.render layout) :=
  written_write layout 0 (.nil (List.forall_mem_nil _)) value

/-- A value is read from its text. -/
theorem ofText?_render (layout : Layout) (value : Json) :
    ofText? (value.render layout) = some value :=
  ofText?_of_spells (spells_render layout value)

end HackComputer.Json
