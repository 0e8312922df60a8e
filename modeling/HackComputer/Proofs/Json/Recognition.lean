import HackComputer.Proofs.Json.Spelling

/-!
# What is read is spelled

The reader of JSON text accepts nothing but the texts of values.  `PendingText` is the text
so far of the token that is being read; every character that the scanner takes adds to it,
ends it or belongs between tokens (`Scanned.step`).
-/

namespace HackComputer.Json

/-! ## Numbers -/

theorem IsDigits.append {digits : List Char} (decimal : IsDigits digits) {digit : Char}
    (next_decimal : isDigit digit = true) : IsDigits (digits ++ [digit]) := by
  obtain ⟨-, decimal⟩ := decimal
  refine ⟨List.append_ne_nil_of_right_ne_nil _ (List.cons_ne_nil _ _), ?_⟩
  exact List.forall_mem_append.2 ⟨decimal, List.forall_mem_singleton.2 next_decimal⟩

theorem IsWhole.append {whole : List Char} (natural : IsWhole whole) (nonzero : whole ≠ ['0'])
    {digit : Char} (decimal : isDigit digit = true) : IsWhole (whole ++ [digit]) := by
  obtain ⟨digits, no_zero⟩ := natural
  refine ⟨digits.append decimal, fun zero => ?_⟩
  rw [List.head?_append_of_ne_nil _ digits.1] at zero
  exact absurd (no_zero zero) nonzero

namespace NumberPhase

variable {char : Char} {next : NumberPhase}

theorem isExponent_iff : (char == 'e' || char == 'E') = true ↔ char = 'e' ∨ char = 'E' := by
  rw [Bool.or_eq_true, beq_iff_eq, beq_iff_eq]

theorem of_next?_sign (goes_on : sign.next? char = some next) :
    isDigit char = true ∧ next = Scan.wholePhase [char] := by
  simp only [next?] at goes_on
  split_ifs at goes_on with zero decimal <;> cases goes_on
  · rw [beq_iff_eq.1 zero]
    exact ⟨rfl, rfl⟩
  · refine ⟨decimal, (Scan.wholePhase_cons ?_ []).symm⟩
    exact fun same => zero (beq_iff_eq.2 same)

theorem of_next?_zero (goes_on : zero.next? char = some next) :
    char = '.' ∧ next = .point ∨ (char = 'e' ∨ char = 'E') ∧ next = .exponent := by
  simp only [next?] at goes_on
  split_ifs at goes_on with pointed marked <;> cases goes_on
  · exact .inl ⟨beq_iff_eq.1 pointed, rfl⟩
  · exact .inr ⟨isExponent_iff.1 marked, rfl⟩

theorem of_next?_whole (goes_on : whole.next? char = some next) :
    isDigit char = true ∧ next = .whole ∨ char = '.' ∧ next = .point ∨
      (char = 'e' ∨ char = 'E') ∧ next = .exponent := by
  simp only [next?] at goes_on
  split_ifs at goes_on with decimal pointed marked <;> cases goes_on
  · exact .inl ⟨decimal, rfl⟩
  · exact .inr (.inl ⟨beq_iff_eq.1 pointed, rfl⟩)
  · exact .inr (.inr ⟨isExponent_iff.1 marked, rfl⟩)

theorem of_next?_fraction (goes_on : fraction.next? char = some next) :
    isDigit char = true ∧ next = .fraction ∨ (char = 'e' ∨ char = 'E') ∧ next = .exponent := by
  simp only [next?] at goes_on
  split_ifs at goes_on with decimal marked <;> cases goes_on
  · exact .inl ⟨decimal, rfl⟩
  · exact .inr ⟨isExponent_iff.1 marked, rfl⟩

theorem of_next?_exponent (goes_on : exponent.next? char = some next) :
    (char = '+' ∨ char = '-') ∧ next = .exponentSign ∨ isDigit char = true ∧ next = .power := by
  simp only [next?] at goes_on
  split_ifs at goes_on with signed decimal <;> cases goes_on
  · rw [Bool.or_eq_true, beq_iff_eq, beq_iff_eq] at signed
    exact .inl ⟨signed, rfl⟩
  · exact .inr ⟨decimal, rfl⟩

end NumberPhase

theorem IsExponent.append {exponent : List Char} (exponential : IsExponent exponent)
    (nonempty : exponent ≠ []) {digit : Char} (decimal : isDigit digit = true) :
    IsExponent (exponent ++ [digit]) := by
  cases exponential with
  | absent => contradiction
  | unsigned marked digits => exact .unsigned marked (digits.append decimal)
  | signed marked signed digits => exact .signed marked signed (digits.append decimal)

/-- The text so far of a number that is being read. -/
inductive PartialText : PartialNumber → List Char → Prop
  | sign : PartialText ⟨true, .sign, 0⟩ ['-']
  | whole {negative : Bool} {whole : List Char} (natural : IsWhole whole) :
      PartialText ⟨negative, Scan.wholePhase whole, Nat.ofDigitChars 10 whole 0⟩
        (signText negative ++ whole)
  | point {negative : Bool} {magnitude : Nat} {whole : List Char} (natural : IsWhole whole) :
      PartialText ⟨negative, .point, magnitude⟩ (signText negative ++ whole ++ ['.'])
  | fraction {negative : Bool} {magnitude : Nat} {whole digits : List Char}
      (natural : IsWhole whole) (decimal : IsDigits digits) :
      PartialText ⟨negative, .fraction, magnitude⟩ (signText negative ++ whole ++ '.' :: digits)
  | exponent {negative : Bool} {magnitude : Nat} {whole fraction : List Char} {letter : Char}
      (natural : IsWhole whole) (fractional : IsFraction fraction)
      (marked : letter = 'e' ∨ letter = 'E') :
      PartialText ⟨negative, .exponent, magnitude⟩
        (signText negative ++ whole ++ fraction ++ [letter])
  | exponentSign {negative : Bool} {magnitude : Nat} {whole fraction : List Char}
      {letter sign : Char} (natural : IsWhole whole) (fractional : IsFraction fraction)
      (marked : letter = 'e' ∨ letter = 'E') (signed : sign = '+' ∨ sign = '-') :
      PartialText ⟨negative, .exponentSign, magnitude⟩
        (signText negative ++ whole ++ fraction ++ [letter, sign])
  | power {negative : Bool} {magnitude : Nat} {whole fraction exponent : List Char}
      (natural : IsWhole whole) (fractional : IsFraction fraction)
      (exponential : IsExponent exponent) (nonempty : exponent ≠ []) :
      PartialText ⟨negative, .power, magnitude⟩
        (signText negative ++ whole ++ fraction ++ exponent)

namespace PartialText

variable {number next : PartialNumber} {chars : List Char} {char : Char}

/-- The text of a number grows by each character that the number goes on with. -/
theorem push (so_far : PartialText number chars) (goes_on : number.push? char = some next) :
    PartialText next (chars ++ [char]) := by
  obtain ⟨phase, phase_eq, rfl⟩ := Option.map_eq_some_iff.1 goes_on
  cases so_far with
  | sign =>
      obtain ⟨decimal, rfl⟩ := NumberPhase.of_next?_sign phase_eq
      have grown := @PartialText.whole true [char] (.singleton decimal)
      by_cases zero : char = '0'
      · cases zero
        exact grown
      · rw [Scan.wholePhase_cons zero] at grown ⊢
        exact grown
  | @whole negative whole natural =>
      by_cases zero : whole = ['0']
      · subst zero
        rcases NumberPhase.of_next?_zero phase_eq with ⟨rfl, rfl⟩ | ⟨marked, rfl⟩
        · exact .point natural
        · rw [← List.append_nil (signText negative ++ ['0'])]
          exact .exponent natural .absent marked
      · -- Only here does the value of the number grow with the digit.
        have phase_whole : Scan.wholePhase whole = .whole := if_neg zero
        rw [phase_whole] at phase_eq
        rcases NumberPhase.of_next?_whole phase_eq with
          ⟨decimal, rfl⟩ | ⟨rfl, rfl⟩ | ⟨marked, rfl⟩
        · have grown := @PartialText.whole negative _ (natural.append zero decimal)
          have grown_whole : Scan.wholePhase (whole ++ [char]) = .whole := by
            rw [Scan.wholePhase, if_neg]
            intro single
            rcases List.append_eq_singleton_iff.1 single with ⟨empty, -⟩ | ⟨unchanged, -⟩
            · exact natural.1.1 empty
            · exact zero unchanged
          rw [grown_whole, Nat.ofDigitChars_append, ← List.append_assoc] at grown
          exact grown
        · exact .point natural
        · rw [← List.append_nil (signText negative ++ whole)]
          exact .exponent natural .absent marked
  | point natural =>
      obtain ⟨decimal, phase_eq⟩ := Option.ite_none_right_eq_some.1 phase_eq
      cases phase_eq
      rw [List.append_assoc]
      exact .fraction natural (.singleton decimal)
  | fraction natural decimal =>
      rcases NumberPhase.of_next?_fraction phase_eq with ⟨next_decimal, rfl⟩ | ⟨marked, rfl⟩
      · rw [List.append_assoc]
        exact .fraction natural (decimal.append next_decimal)
      · exact .exponent natural (.present decimal) marked
  | exponent natural fractional marked =>
      rw [List.append_assoc]
      rcases NumberPhase.of_next?_exponent phase_eq with ⟨signed, rfl⟩ | ⟨decimal, rfl⟩
      · exact .exponentSign natural fractional marked signed
      · exact .power natural fractional (.unsigned marked (.singleton decimal))
          (List.cons_ne_nil _ _)
  | exponentSign natural fractional marked signed =>
      obtain ⟨decimal, phase_eq⟩ := Option.ite_none_right_eq_some.1 phase_eq
      cases phase_eq
      rw [List.append_assoc]
      exact .power natural fractional (.signed marked signed (.singleton decimal))
        (List.cons_ne_nil _ _)
  | power natural fractional exponential nonempty =>
      obtain ⟨decimal, phase_eq⟩ := Option.ite_none_right_eq_some.1 phase_eq
      cases phase_eq
      rw [List.append_assoc]
      exact .power natural fractional (exponential.append nonempty decimal)
        (List.append_ne_nil_of_left_ne_nil nonempty _)

theorem of_ofChar? (starts : PartialNumber.ofChar? char = some number) :
    PartialText number [char] := by
  rw [PartialNumber.ofChar?] at starts
  split_ifs at starts with minus zero decimal <;> cases starts
  · rw [beq_iff_eq.1 minus]
    exact .sign
  · rw [beq_iff_eq.1 zero]
    exact @PartialText.whole false ['0'] (.singleton rfl)
  · have started := @PartialText.whole false [char] (.singleton decimal)
    have nonzero : char ≠ '0' := fun same => zero (beq_iff_eq.2 same)
    rw [Scan.wholePhase_cons nonzero, Nat.ofDigitChars_cons, Nat.mul_zero, Nat.zero_add] at started
    exact started

/-- The text of a number that ends here is one of its texts. -/
theorem numberText (so_far : PartialText number chars) {token : Token}
    (ended : number.token? = some token) : NumberText token chars := by
  cases so_far with
  | sign | point _ | exponent _ _ _ | exponentSign _ _ _ _ => contradiction
  | @whole negative whole natural =>
      by_cases zero : whole = ['0']
      · subst zero
        cases negative <;> cases ended
        · exact .nonneg natural
        · exact .negativeZero
      · rw [Scan.wholePhase, if_neg zero] at ended
        cases negative <;> cases ended
        · exact .nonneg natural
        · exact .negative natural zero
  | fraction natural decimal =>
      cases ended
      rw [← List.append_nil (_ ++ _)]
      exact .real natural (.present decimal) .absent (List.cons_ne_nil _ _)
  | power natural fractional exponential nonempty =>
      cases ended
      exact .real natural fractional exponential (List.append_ne_nil_of_right_ne_nil _ nonempty)

end PartialText

/-! ## Tokens -/

/-- The value of hexadecimal digits. -/
def hexValue? (digits : List Char) : Option Nat :=
  digits.foldlM (fun value digit => (hexDigit? digit).map (16 * value + ·)) 0

theorem hexValue?_append {digits : List Char} {value : Nat} (read : hexValue? digits = some value)
    {char : Char} {digit : Nat} (digit_eq : hexDigit? char = some digit) :
    hexValue? (digits ++ [char]) = some (16 * value + digit) := by
  rw [hexValue?] at read ⊢
  rw [List.foldlM_append, read, Option.bind_eq_bind, Option.bind_some, List.foldlM_cons, digit_eq]
  rfl

/-- The text so far of the token that is being read. -/
inductive PendingText : Pending → List Char → Prop
  | idle : PendingText .idle []
  | keyword (letters : List Char) : PendingText (.keyword letters) letters.reverse
  | number {number : PartialNumber} {chars : List Char} (so_far : PartialText number chars) :
      PendingText (.number number) chars
  | text {pieces : List Piece} {texts : List (List Char)}
      (spelled : List.Forall₂ PieceText pieces.reverse texts) :
      PendingText (.text pieces) ('"' :: texts.flatten)
  | escape {pieces : List Piece} {texts : List (List Char)}
      (spelled : List.Forall₂ PieceText pieces.reverse texts) :
      PendingText (.escape pieces) ('"' :: (texts.flatten ++ ['\\']))
  | code {pieces : List Piece} {texts : List (List Char)} {digits : List Char}
      {missing value : Nat} (spelled : List.Forall₂ PieceText pieces.reverse texts)
      (read : hexValue? digits = some value) (count : digits.length + missing = 3) :
      PendingText (.code pieces missing value) ('"' :: (texts.flatten ++ '\\' :: 'u' :: digits))

/-- A numeric escape whose last digit has been read is one of the texts of its piece. -/
theorem pieceText_of_hexValue? {a b c d : Char} {value digit : Nat}
    (read : hexValue? [a, b, c] = some value) (last : hexDigit? d = some digit) :
    PieceText (.ofCode (16 * value + digit)) ['\\', 'u', a, b, c, d] := by
  obtain ⟨_, first, read⟩ := Option.bind_eq_some_iff.1 read
  obtain ⟨_, second, read⟩ := Option.bind_eq_some_iff.1 read
  obtain ⟨_, third, read⟩ := Option.bind_eq_some_iff.1 read
  cases read
  obtain ⟨w, first_digit, rfl⟩ := Option.map_eq_some_iff.1 first
  obtain ⟨x, second_digit, rfl⟩ := Option.map_eq_some_iff.1 second
  obtain ⟨y, third_digit, rfl⟩ := Option.map_eq_some_iff.1 third
  rw [Nat.mul_zero, Nat.zero_add]
  exact .code first_digit second_digit third_digit last

/-- The text of a string that is being read grows by each of its elements. -/
theorem PendingText.push_piece {pieces : List Piece} {texts : List (List Char)} {piece : Piece}
    {chars : List Char} (spelled : List.Forall₂ PieceText pieces.reverse texts)
    (here : PieceText piece chars) :
    PendingText (.text (piece :: pieces)) ('"' :: (texts.flatten ++ chars)) := by
  have grown : List.Forall₂ PieceText (piece :: pieces).reverse (texts ++ [chars]) := by
    rw [List.reverse_cons]
    exact List.rel_append spelled (.cons here .nil)
  have flatten_eq : texts.flatten ++ chars = (texts ++ [chars]).flatten := by
    rw [List.flatten_append, List.flatten_singleton]
  rw [flatten_eq]
  exact .text grown

/-- The text is that of the tokens that have been read and of the one being read. -/
def Scanned (scan : Scan) (chars : List Char) : Prop :=
  ∃ finished pending, chars = finished ++ pending ∧ SpellsTokens scan.tokens.reverse finished ∧
    PendingText scan.pending pending

theorem SpellsTokens.push {before : List Token} {chars last : List Char} {token : Token}
    (spells : SpellsTokens before.reverse chars) (spelled : TokenText token last) :
    SpellsTokens (token :: before).reverse (chars ++ last) := by
  rw [List.reverse_cons]
  exact spells.append_token spelled

namespace Scanned

variable {scan next : Scan} {tokens : List Token} {chars : List Char} {char : Char}

theorem of_idle (spells : SpellsTokens tokens.reverse chars) : Scanned ⟨tokens, .idle⟩ chars :=
  ⟨chars, [], (List.append_nil _).symm, spells, .idle⟩

/-- The token that is being read is one of its texts where it ends. -/
theorem flush (scanned : Scanned scan chars) (flushed : scan.flush = some next) :
    next.pending = .idle ∧ SpellsTokens next.tokens.reverse chars := by
  obtain ⟨tokens, pending⟩ := scan
  obtain ⟨finished, last, rfl, spells, so_far⟩ := scanned
  cases so_far with
  | idle =>
      cases flushed
      rw [List.append_nil]
      exact ⟨rfl, spells⟩
  | keyword letters =>
      obtain ⟨token, stands, rfl⟩ := Option.map_eq_some_iff.1 flushed
      exact ⟨rfl, spells.push (.keyword stands)⟩
  | number so_far =>
      obtain ⟨token, ended, rfl⟩ := Option.map_eq_some_iff.1 flushed
      exact ⟨rfl, spells.push (.number (so_far.numberText ended))⟩
  | text _ | escape _ | code _ _ _ => contradiction

theorem begin (spells : SpellsTokens tokens.reverse chars)
    (begun : Scan.begin ⟨tokens, .idle⟩ char = some next) : Scanned next (chars ++ [char]) := by
  rw [Scan.begin] at begun
  split_ifs at begun with blank quoted letter
  · cases begun
    exact of_idle (spells.append_blanks (List.forall_mem_singleton.2 blank))
  · cases begun
    rw [beq_iff_eq.1 quoted]
    exact ⟨chars, ['"'], rfl, spells, @PendingText.text [] [] .nil⟩
  · cases begun
    exact ⟨chars, [char], rfl, spells, .keyword [char]⟩
  · split at begun
    · rename_i token stands
      cases begun
      exact of_idle (spells.push (.mark stands))
    · obtain ⟨number, starts, rfl⟩ := Option.map_eq_some_iff.1 begun
      exact ⟨chars, [char], rfl, spells, .number (.of_ofChar? starts)⟩

/-- Each character that is taken belongs to the text of what has been read. -/
theorem step (scanned : Scanned scan chars) (stepped : scan.step char = some next) :
    Scanned next (chars ++ [char]) := by
  -- A character that a keyword or a number does not go on with comes behind it.
  have begin_flushed (ended : (scan.flush >>= fun scan => scan.begin char) = some next) :
      Scanned next (chars ++ [char]) := by
    obtain ⟨⟨tokens, pending⟩, flushed, begun⟩ := Option.bind_eq_some_iff.1 ended
    obtain ⟨idle, spells⟩ := scanned.flush flushed
    obtain rfl : pending = .idle := idle
    exact begin spells begun
  obtain ⟨tokens, pending⟩ := scan
  obtain ⟨finished, last, rfl, spells, so_far⟩ := scanned
  cases so_far with
  | idle =>
      rw [List.append_nil]
      exact begin spells stepped
  | keyword letters =>
      by_cases letter : isKeywordChar char = true
      · simp only [Scan.step, if_pos letter] at stepped
        cases stepped
        refine ⟨finished, _, List.append_assoc _ _ _, spells, ?_⟩
        rw [← List.reverse_cons]
        exact .keyword (char :: letters)
      · simp only [Scan.step, if_neg letter] at stepped
        exact begin_flushed stepped
  | @number number _ so_far =>
      cases pushed : number.push? char with
      | some more =>
          simp only [Scan.step, pushed] at stepped
          cases stepped
          exact ⟨finished, _, List.append_assoc _ _ _, spells, .number (so_far.push pushed)⟩
      | none =>
          simp only [Scan.step, pushed] at stepped
          exact begin_flushed stepped
  | @text pieces texts spelled =>
      simp only [Scan.step] at stepped
      split_ifs at stepped with quote backslash control <;> cases stepped
      · rw [List.append_assoc, beq_iff_eq.1 quote]
        have quoted : QuotedText ((joinPieces [] pieces).map String.ofList)
            ('"' :: (texts.flatten ++ ['"'])) := by
          refine ⟨pieces.reverse, texts, spelled, ?_, rfl⟩
          rw [← joinPieces_nil_reverse, List.reverse_reverse]
        exact of_idle (spells.push (.text quoted))
      · rw [List.append_assoc, beq_iff_eq.1 backslash]
        exact ⟨finished, _, rfl, spells, .escape spelled⟩
      · rw [List.append_assoc]
        refine ⟨finished, _, rfl, spells, .push_piece spelled (.plain control ?_ ?_)⟩
        · exact fun same => quote (beq_iff_eq.2 same)
        · exact fun same => backslash (beq_iff_eq.2 same)
  | @escape pieces texts spelled =>
      simp only [Scan.step] at stepped
      rw [List.append_assoc, List.cons_append, List.append_assoc]
      split_ifs at stepped with numeric
      · cases stepped
        rw [beq_iff_eq.1 numeric]
        exact ⟨finished, _, rfl, spells, .code spelled rfl rfl⟩
      · obtain ⟨value, stands, rfl⟩ := Option.map_eq_some_iff.1 stepped
        exact ⟨finished, _, rfl, spells, .push_piece spelled (.short stands)⟩
  | @code pieces texts digits missing value spelled read count =>
      obtain ⟨digit, digit_eq, rfl⟩ := Option.map_eq_some_iff.1 stepped
      rw [List.append_assoc, List.cons_append, List.append_assoc, List.cons_append,
        List.cons_append]
      cases missing with
      | zero =>
          obtain ⟨a, b, c, rfl⟩ := List.length_eq_three.1 count
          have whole := pieceText_of_hexValue? read digit_eq
          exact ⟨finished, _, rfl, spells, .push_piece spelled whole⟩
      | succ missing =>
          have more := hexValue?_append read digit_eq
          refine ⟨finished, _, rfl, spells, .code spelled more ?_⟩
          rw [List.length_append, List.length_singleton]
          omega

theorem foldlM {more : List Char} (scanned : Scanned scan chars)
    (run : more.foldlM Scan.step scan = some next) : Scanned next (chars ++ more) := by
  induction more generalizing scan chars with
  | nil =>
      cases run
      rw [List.append_nil]
      exact scanned
  | cons char more inductionHypothesis =>
      obtain ⟨middle, stepped, run⟩ := Option.bind_eq_some_iff.1 run
      rw [List.append_cons]
      exact inductionHypothesis (scanned.step stepped) run

end Scanned

/-- The tokens that are read from a text are spelled by it. -/
theorem spellsTokens_of_tokens? {chars : List Char} {tokens : List Token}
    (read : tokens? chars = some tokens) : SpellsTokens tokens chars := by
  obtain ⟨scan, run, read⟩ := Option.bind_eq_some_iff.1 read
  obtain ⟨last, flushed, read⟩ := Option.bind_eq_some_iff.1 read
  cases read
  have started : Scanned .start [] := .of_idle (.nil (List.forall_mem_nil _))
  obtain ⟨-, spells⟩ := (started.foldlM run).flush flushed
  exact spells

/-- A value is read from its texts and from no others. -/
theorem ofText?_eq_some_iff_spells {value : Json} {text : String} :
    ofText? text = some value ↔ Spells value text := by
  constructor
  · intro read
    obtain ⟨tokens, scanned, read⟩ := Option.bind_eq_some_iff.1 read
    obtain rfl := ofTokens?_eq_some_iff.1 read
    exact spellsTokens_of_tokens? scanned
  · exact ofText?_of_spells

end HackComputer.Json
