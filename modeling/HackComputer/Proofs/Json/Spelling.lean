import HackComputer.Proofs.Json.Grammar
import Mathlib.Data.List.Chain
import Mathlib.Tactic.IntervalCases

/-!
# Reading every spelling

Every text of a value is read as the value, whichever spellings and white space it has.
The scanner takes each spelling of a token to that token, from between two tokens; a number
or a keyword is left pending, and what stands behind it in the text of a value ends it.
-/

namespace HackComputer.Json

/-! ## Numbers -/

theorem exists_digitChar {char : Char} (decimal : isDigit char = true) :
    ∃ digit < 10, char = digit.digitChar ∧ char.toNat - 48 = digit := by
  rw [isDigit, Bool.and_eq_true, decide_eq_true_eq, decide_eq_true_eq] at decimal
  obtain ⟨above, below⟩ : 48 ≤ char.toNat ∧ char.toNat ≤ 57 := decimal
  have small : char.toNat - 48 < 10 := by omega
  refine ⟨char.toNat - 48, small, ?_, rfl⟩
  apply Char.toNat_inj.1
  rw [Nat.toNat_digitChar_of_lt_ten small]
  omega

namespace NumberPhase

variable {char : Char} (decimal : isDigit char = true)

include decimal

theorem next?_whole : whole.next? char = some .whole :=
  if_pos decimal

theorem next?_point : point.next? char = some .fraction :=
  if_pos decimal

theorem next?_fraction : fraction.next? char = some .fraction :=
  if_pos decimal

theorem next?_exponent : exponent.next? char = some .power := by
  obtain ⟨digit, small, rfl, -⟩ := exists_digitChar decimal
  interval_cases digit <;> rfl

theorem next?_exponentSign : exponentSign.next? char = some .power :=
  if_pos decimal

theorem next?_power : power.next? char = some .power :=
  if_pos decimal

end NumberPhase

namespace Scan

variable {before : List Token} {negative : Bool} {phase : NumberPhase} {magnitude : Nat}
  {digits : List Char}

theorem begin_digit {digit : Nat} (positive : 1 ≤ digit) (small : digit < 10) :
    step ⟨before, .idle⟩ digit.digitChar = some ⟨before, .number ⟨false, .whole, digit⟩⟩ := by
  interval_cases digit <;> rfl

theorem step_digit_of_sign {digit : Nat} (positive : 1 ≤ digit) (small : digit < 10) :
    step ⟨before, .number ⟨true, .sign, 0⟩⟩ digit.digitChar =
      some ⟨before, .number ⟨true, .whole, digit⟩⟩ := by
  interval_cases digit <;> rfl

/-- A character that goes on a number behind the digits before its point. -/
theorem step_number {next : NumberPhase} {char : Char} (goes_on : phase.next? char = some next)
    (behind : next ≠ .whole) :
    step ⟨before, .number ⟨negative, phase, magnitude⟩⟩ char =
      some ⟨before, .number ⟨negative, next, magnitude⟩⟩ := by
  simp only [step, PartialNumber.push?, goes_on, Option.map_some, beq_iff_eq, behind, if_false]

theorem foldlM_whole_digits (decimal : ∀ char ∈ digits, isDigit char = true) :
    digits.foldlM step ⟨before, .number ⟨negative, .whole, magnitude⟩⟩ =
      some ⟨before, .number ⟨negative, .whole, Nat.ofDigitChars 10 digits magnitude⟩⟩ := by
  induction digits generalizing magnitude with
  | nil => rfl
  | cons char rest inductionHypothesis =>
      obtain ⟨here, behind⟩ := List.forall_mem_cons.1 decimal
      have stepped : step ⟨before, .number ⟨negative, .whole, magnitude⟩⟩ char =
          some ⟨before, .number ⟨negative, .whole, 10 * magnitude + (char.toNat - 48)⟩⟩ := by
        simp only [step, PartialNumber.push?, NumberPhase.next?_whole here, Option.map_some,
          beq_self_eq_true, if_true]
      rw [List.foldlM_cons, stepped, Nat.ofDigitChars_cons]
      exact inductionHypothesis behind

/-- Digits behind the point, which leave the phase that they come to. -/
theorem foldlM_digits {last : NumberPhase} (behind : last ≠ .whole)
    (starts : ∀ char, isDigit char = true → phase.next? char = some last)
    (stays : ∀ char, isDigit char = true → last.next? char = some last)
    (decimal : IsDigits digits) :
    digits.foldlM step ⟨before, .number ⟨negative, phase, magnitude⟩⟩ =
      some ⟨before, .number ⟨negative, last, magnitude⟩⟩ := by
  obtain ⟨nonempty, decimal⟩ := decimal
  obtain ⟨char, rest, rfl⟩ := List.exists_cons_of_ne_nil nonempty
  obtain ⟨here, rest_decimal⟩ := List.forall_mem_cons.1 decimal
  rw [List.foldlM_cons, step_number (starts char here) behind]
  clear decimal nonempty here
  induction rest with
  | nil => rfl
  | cons char rest inductionHypothesis =>
      obtain ⟨here, rest_decimal⟩ := List.forall_mem_cons.1 rest_decimal
      refine Eq.trans ?_ (inductionHypothesis rest_decimal)
      change step _ char >>= _ = _
      rw [step_number (stays char here) behind]

/-- The phase of a number behind the digits before its point. -/
def wholePhase (whole : List Char) : NumberPhase :=
  if whole = ['0'] then .zero else .whole

theorem wholePhase_cons {char : Char} (nonzero : char ≠ '0') (rest : List Char) :
    wholePhase (char :: rest) = .whole := by
  rw [wholePhase, if_neg]
  rintro ⟨rfl, -⟩
  exact nonzero rfl

/-- The sign of a number and the digits before its point. -/
theorem foldlM_sign_whole (negative : Bool) {whole : List Char} (natural : IsWhole whole) :
    (signText negative ++ whole).foldlM step ⟨before, .idle⟩ =
      some ⟨before, .number ⟨negative, wholePhase whole, Nat.ofDigitChars 10 whole 0⟩⟩ := by
  obtain ⟨⟨nonempty, decimal⟩, no_zero⟩ := natural
  obtain ⟨char, rest, rfl⟩ := List.exists_cons_of_ne_nil nonempty
  obtain ⟨here, behind⟩ := List.forall_mem_cons.1 decimal
  by_cases zero : char = '0'
  · subst zero
    rw [no_zero rfl]
    cases negative <;> rfl
  · obtain ⟨digit, small, char_eq, value_eq⟩ := exists_digitChar here
    have positive : 1 ≤ digit := by
      rw [Nat.one_le_iff_ne_zero]
      rintro rfl
      exact zero char_eq
    have begun : (signText negative ++ [char]).foldlM step ⟨before, .idle⟩ =
        some ⟨before, .number ⟨negative, .whole, digit⟩⟩ := by
      rw [char_eq]
      cases negative with
      | false =>
          change step _ _ >>= _ = _
          rw [begin_digit positive small]
          rfl
      | true =>
          change step ⟨before, .number ⟨true, .sign, 0⟩⟩ _ >>= _ = _
          rw [step_digit_of_sign positive small]
          rfl
    have ofDigitChars_eq :
        Nat.ofDigitChars 10 (char :: rest) 0 = Nat.ofDigitChars 10 rest digit := by
      rw [Nat.ofDigitChars_cons, ← value_eq, Nat.mul_zero, Nat.zero_add]
      rfl
    rw [wholePhase_cons zero, ofDigitChars_eq, ← List.singleton_append, ← List.append_assoc,
      List.foldlM_append, begun]
    exact foldlM_whole_digits behind

theorem foldlM_fraction {fraction : List Char} (fractional : IsFraction fraction)
    (allowed : phase = .zero ∨ phase = .whole) :
    fraction.foldlM step ⟨before, .number ⟨negative, phase, magnitude⟩⟩ =
      some ⟨before, .number ⟨negative, if fraction = [] then phase else .fraction, magnitude⟩⟩ := by
  cases fractional with
  | absent => rfl
  | present decimal =>
      have pointed : phase.next? '.' = some .point := by
        rcases allowed with rfl | rfl <;> rfl
      rw [List.foldlM_cons, step_number pointed (by decide), if_neg (List.cons_ne_nil _ _)]
      exact foldlM_digits (by decide) (fun _ => NumberPhase.next?_point)
        (fun _ => NumberPhase.next?_fraction) decimal

theorem foldlM_exponent {exponent : List Char} (exponential : IsExponent exponent)
    (allowed : phase = .zero ∨ phase = .whole ∨ phase = .fraction) :
    exponent.foldlM step ⟨before, .number ⟨negative, phase, magnitude⟩⟩ =
      some ⟨before, .number ⟨negative, if exponent = [] then phase else .power, magnitude⟩⟩ := by
  have marked_next {letter : Char} (marked : letter = 'e' ∨ letter = 'E') :
      phase.next? letter = some .exponent := by
    rcases marked with rfl | rfl <;> rcases allowed with rfl | rfl | rfl <;> rfl
  cases exponential with
  | absent => rfl
  | unsigned marked decimal =>
      rw [List.foldlM_cons, step_number (marked_next marked) (by decide),
        if_neg (List.cons_ne_nil _ _)]
      exact foldlM_digits (by decide) (fun _ => NumberPhase.next?_exponent)
        (fun _ => NumberPhase.next?_power) decimal
  | @signed letter sign digits marked signed decimal =>
      have signed_next : NumberPhase.exponent.next? sign = some .exponentSign := by
        rcases signed with rfl | rfl <;> rfl
      rw [List.foldlM_cons, step_number (marked_next marked) (by decide),
        if_neg (List.cons_ne_nil _ _)]
      change (sign :: digits).foldlM step _ = _
      rw [List.foldlM_cons, step_number signed_next (by decide)]
      exact foldlM_digits (by decide) (fun _ => NumberPhase.next?_exponentSign)
        (fun _ => NumberPhase.next?_power) decimal

/-- The phase at the end of a number with these parts. -/
def lastPhase (whole fraction exponent : List Char) : NumberPhase :=
  if exponent = [] then if fraction = [] then wholePhase whole else .fraction else .power

theorem foldlM_number (negative : Bool) {whole fraction exponent : List Char}
    (natural : IsWhole whole) (fractional : IsFraction fraction)
    (exponential : IsExponent exponent) :
    (signText negative ++ whole ++ fraction ++ exponent).foldlM step ⟨before, .idle⟩ =
      some ⟨before, .number ⟨negative, lastPhase whole fraction exponent,
        Nat.ofDigitChars 10 whole 0⟩⟩ := by
  have whole_allowed : wholePhase whole = .zero ∨ wholePhase whole = .whole := by
    rw [wholePhase]
    split
    · exact .inl rfl
    · exact .inr rfl
  rw [List.foldlM_append, List.foldlM_append, foldlM_sign_whole negative natural,
    Option.bind_eq_bind, Option.bind_some, foldlM_fraction fractional whole_allowed,
    Option.bind_some]
  refine foldlM_exponent exponential ?_
  split
  · exact whole_allowed.imp_right .inl
  · exact .inr (.inr rfl)

/-- A number is read from its text, once the text has ended. -/
theorem foldlM_numberText {token : Token} {chars : List Char} (spelled : NumberText token chars) :
    ∃ scan, chars.foldlM step ⟨before, .idle⟩ = some scan ∧
      scan.flush = some ⟨token :: before, .idle⟩ := by
  cases spelled with
  | nonneg natural =>
      refine ⟨_, foldlM_sign_whole false natural, ?_⟩
      rw [wholePhase]
      split
      · rename_i zero
        rw [zero]
        rfl
      · rfl
  | negative natural nonzero =>
      refine ⟨_, foldlM_sign_whole true natural, ?_⟩
      rw [wholePhase, if_neg nonzero]
      rfl
  | negativeZero => exact ⟨_, rfl, rfl⟩
  | @real negative whole fraction exponent natural fractional exponential inexact =>
      refine ⟨_, foldlM_number negative natural fractional exponential, ?_⟩
      rw [lastPhase]
      split
      · rename_i no_exponent
        rw [if_neg]
        · rfl
        · intro no_fraction
          exact inexact (by rw [no_fraction, no_exponent]; rfl)
      · rfl

/-! ## Strings -/

variable {pieces : List Piece}

/-- An element of a string is read from its text. -/
theorem foldlM_pieceText {piece : Piece} {chars : List Char} (spelled : PieceText piece chars) :
    chars.foldlM step ⟨before, .text pieces⟩ = some ⟨before, .text (piece :: pieces)⟩ := by
  cases spelled with
  | plain printable no_quote no_backslash =>
      simp only [List.foldlM_cons, List.foldlM_nil, step, beq_iff_eq, no_quote, no_backslash,
        printable, if_false]
      rfl
  | @short letter char stands =>
      have other : letter ≠ 'u' := by
        rintro rfl
        contradiction
      change step ⟨before, .escape pieces⟩ letter >>= _ = _
      simp only [step, beq_iff_eq, other, if_false, stands, Option.map_some]
      rfl
  | code first second third fourth =>
      change [_, _, _, _].foldlM step ⟨before, .code pieces 3 0⟩ = _
      simp only [List.foldlM_cons, List.foldlM_nil, step, first, second, third, fourth,
        Option.map_some, Option.bind_eq_bind, Option.bind_some, Nat.mul_zero, Nat.zero_add]
      rfl

theorem foldlM_pieceTexts {spelled : List Piece} {texts : List (List Char)}
    (spells : List.Forall₂ PieceText spelled texts) :
    texts.flatten.foldlM step ⟨before, .text pieces⟩ =
      some ⟨before, .text (spelled.reverse ++ pieces)⟩ := by
  induction spells generalizing pieces with
  | nil => rfl
  | cons here _ inductionHypothesis =>
      rw [List.flatten_cons, List.foldlM_append, foldlM_pieceText here, Option.bind_eq_bind,
        Option.bind_some, inductionHypothesis, List.reverse_cons, List.append_assoc]
      rfl

end Scan

/-- Reading from the end passes over everything up to a place where no pair is divided. -/
theorem joinPieces_append (rest : List Char) (late early : List Piece)
    (undivided : ∀ code, early.head? = some (.half code) → isLeadingHalf code = false) :
    joinPieces rest (late ++ early) = joinPieces rest late >>= (joinPieces · early) := by
  fun_induction joinPieces rest late with
  | case1 rest => rfl
  | case2 rest value before inductionHypothesis =>
      exact inductionHypothesis
  | case3 rest trailing leading before pair inductionHypothesis =>
      rw [List.cons_append, List.cons_append, joinPieces, if_pos pair]
      exact inductionHypothesis
  | case4 rest trailing leading before no_pair =>
      rw [List.cons_append, List.cons_append, joinPieces, if_neg no_pair]
      rfl
  | case5 rest code before single =>
      cases before with
      | cons first before =>
          cases first with
          | char => rfl
          | half other => exact (single other before rfl).elim
      | nil =>
          cases early with
          | nil => rfl
          | cons first early =>
              cases first with
              | char => rfl
              | half other =>
                  rw [List.singleton_append, joinPieces, undivided other rfl, Bool.false_and,
                    if_neg Bool.false_ne_true]
                  rfl

/-- A half at the start of a string has no contents unless the other half is behind it. -/
theorem joinPieces_append_half (rest : List Char) (late : List Piece) {code : Nat}
    (unmatched : ∀ other, late.getLast? = some (.half other) →
      (isLeadingHalf code && isTrailingHalf other) = false) :
    joinPieces rest (late ++ [.half code]) = none := by
  fun_induction joinPieces rest late with
  | case1 rest => rfl
  | case2 rest value before inductionHypothesis =>
      refine inductionHypothesis fun other last => unmatched other ?_
      rw [List.getLast?_cons, last, Option.getD_some]
  | case3 rest trailing leading before pair inductionHypothesis =>
      rw [List.cons_append, List.cons_append, joinPieces, if_pos pair]
      refine inductionHypothesis fun other last => unmatched other ?_
      rw [List.getLast?_cons, List.getLast?_cons, last, Option.getD_some, Option.getD_some]
  | case4 rest trailing leading before no_pair =>
      rw [List.cons_append, List.cons_append, joinPieces, if_neg no_pair]
  | case5 rest other before single =>
      cases before with
      | nil =>
          rw [List.singleton_append, joinPieces, unmatched other rfl, if_neg Bool.false_ne_true]
      | cons first before =>
          cases first with
          | char => rfl
          | half leading => exact (single leading before rfl).elim

/-- The scanner joins the elements of a string to its contents. -/
theorem joinPieces_reverse (rest : List Char) (pieces : List Piece) :
    joinPieces rest pieces.reverse = (contents? pieces).map (· ++ rest) := by
  fun_induction contents? pieces with
  | case1 => rfl
  | case2 value more inductionHypothesis =>
      have undivided : ∀ code, [Piece.char value].head? = some (.half code) →
          isLeadingHalf code = false := by
        rintro code ⟨⟩
      rw [List.reverse_cons, joinPieces_append _ _ _ undivided, inductionHypothesis]
      cases contents? more <;> rfl
  | case3 leading trailing more pair inductionHypothesis =>
      have undivided : ∀ code, [Piece.half trailing, .half leading].head? = some (.half code) →
          isLeadingHalf code = false := by
        rintro code ⟨⟩
        obtain ⟨-, trails⟩ := Bool.and_eq_true_iff.1 pair
        rw [isTrailingHalf, Bool.and_eq_true, decide_eq_true_eq, decide_eq_true_eq] at trails
        rw [isLeadingHalf, Bool.and_eq_false_iff, decide_eq_false_iff_not, decide_eq_false_iff_not]
        exact .inr (Nat.not_lt.2 trails.1)
      rw [List.reverse_cons, List.reverse_cons, List.append_assoc, List.singleton_append,
        joinPieces_append _ _ _ undivided, inductionHypothesis]
      cases contents? more with
      | none => rfl
      | some chars =>
          change joinPieces _ [.half trailing, .half leading] = _
          rw [joinPieces, if_pos pair]
          rfl
  | case4 leading trailing more no_pair =>
      rw [List.reverse_cons]
      refine joinPieces_append_half _ _ fun other last => ?_
      rw [List.getLast?_reverse] at last
      cases last
      exact Bool.not_eq_true _ ▸ no_pair
  | case5 code more single =>
      rw [List.reverse_cons]
      refine joinPieces_append_half _ _ fun other last => ?_
      rw [List.getLast?_reverse] at last
      cases more with
      | nil => contradiction
      | cons first more =>
          cases last
          exact (single other more rfl).elim

theorem joinPieces_nil_reverse (pieces : List Piece) :
    joinPieces [] pieces.reverse = contents? pieces := by
  rw [joinPieces_reverse]
  simp only [List.append_nil]
  exact Option.map_id'

namespace Scan

variable {before : List Token}

/-- A string is read from its text. -/
theorem foldlM_quotedText {contents : Option String} {chars : List Char}
    (quoted : QuotedText contents chars) :
    chars.foldlM step ⟨before, .idle⟩ = some ⟨.text contents :: before, .idle⟩ := by
  obtain ⟨pieces, texts, spelled, rfl, rfl⟩ := quoted
  rw [List.foldlM_cons]
  change (texts.flatten ++ ['"']).foldlM step ⟨before, .text []⟩ = _
  rw [List.foldlM_append, foldlM_pieceTexts spelled, List.append_nil]
  change some (Scan.push ⟨before, _⟩ (.text ((joinPieces [] pieces.reverse).map String.ofList))) = _
  rw [joinPieces_nil_reverse]
  rfl

end Scan

/-! ## Tokens -/

/-- Does the token end only with what follows it? -/
def Token.isOpen : Token → Bool
  | .null | .bool _ | .integer _ | .real => true
  | _ => false

/-- Is the token a punctuation mark? -/
def Token.isMark : Token → Bool
  | .openArray | .closeArray | .openObject | .closeObject | .comma | .colon => true
  | _ => false

/-- A token that ends only with what follows it has a mark behind it. -/
def Separated : List Token → Prop :=
  List.IsChain fun token next => token.isOpen = true → next.isMark = true

theorem Separated.cons {token : Token} {rest : List Token} (closed : token.isOpen = false)
    (separated : Separated rest) : Separated (token :: rest) := by
  refine List.IsChain.cons separated fun next _ is_open => ?_
  rw [closed] at is_open
  contradiction

theorem Separated.append {first rest : List Token} (separated : Separated first)
    (rest_separated : Separated rest) (marked : ∀ token ∈ rest.head?, token.isMark = true) :
    Separated (first ++ rest) :=
  List.isChain_append.2 ⟨separated, rest_separated, fun _ _ next member _ => marked next member⟩

theorem isMark_head?_itemTokens (items : List Json) :
    ∀ token ∈ (itemTokens items).head?, token.isMark = true := by
  cases items <;> rintro _ ⟨⟩ <;> rfl

theorem isMark_head?_memberTokens (members : List (Option String × Json)) :
    ∀ token ∈ (memberTokens members).head?, token.isMark = true := by
  cases members <;> rintro _ ⟨⟩ <;> rfl

mutual

/-- The tokens of a value never run together. -/
theorem separated_tokens : ∀ value : Json, Separated value.tokens
  | .null => List.isChain_singleton _
  | .bool _ => List.isChain_singleton _
  | .integer _ => List.isChain_singleton _
  | .real => List.isChain_singleton _
  | .text _ => List.isChain_singleton _
  | .array [] => .cons rfl (List.isChain_singleton _)
  | .array (item :: items) => .cons rfl
      ((separated_tokens item).append (separated_itemTokens items) (isMark_head?_itemTokens items))
  | .object [] => .cons rfl (List.isChain_singleton _)
  | .object ((_, value) :: members) => .cons rfl (.cons rfl (.cons rfl
      ((separated_tokens value).append (separated_memberTokens members)
        (isMark_head?_memberTokens members))))

theorem separated_itemTokens : ∀ items : List Json, Separated (itemTokens items)
  | [] => List.isChain_singleton _
  | item :: items => .cons rfl
      ((separated_tokens item).append (separated_itemTokens items) (isMark_head?_itemTokens items))

theorem separated_memberTokens : ∀ members : List (Option String × Json),
    Separated (memberTokens members)
  | [] => List.isChain_singleton _
  | (_, value) :: members => .cons rfl (.cons rfl (.cons rfl
      ((separated_tokens value).append (separated_memberTokens members)
        (isMark_head?_memberTokens members))))

end

/-! ## Delimiters -/

/-- A character that neither a number nor a keyword goes on with. -/
def Delimits (char : Char) : Prop :=
  isKeywordChar char = false ∧ ∀ phase : NumberPhase, phase.next? char = none

/-- A delimiter ends the token that is being read. -/
theorem Delimits.step_eq {char : Char} (delimits : Delimits char) {scan settled : Scan}
    (flushed : scan.flush = some settled) : scan.step char = settled.begin char := by
  rcases scan with ⟨tokens, pending⟩
  cases pending with
  | idle =>
      obtain rfl := Option.some.inj flushed
      rfl
  | keyword letters =>
      simp only [Scan.step, delimits.1, flushed, Bool.false_eq_true, if_false,
        Option.bind_eq_bind, Option.bind_some]
  | number number =>
      simp only [Scan.step, PartialNumber.push?, delimits.2, flushed, Option.map_none,
        Option.bind_eq_bind, Option.bind_some]
  | text | escape | code => contradiction

/-- White space and punctuation. -/
theorem delimits_of_mem {char : Char}
    (member : char ∈ [' ', '\t', '\n', '\r', '[', ']', '\x7b', '\x7d', ',', ':']) :
    Delimits char := by
  simp only [List.mem_cons, List.not_mem_nil, or_false] at member
  rcases member with rfl | rfl | rfl | rfl | rfl | rfl | rfl | rfl | rfl | rfl <;>
    exact ⟨by decide, fun phase => by cases phase <;> decide⟩

theorem delimits_of_isSpace {char : Char} (blank : isSpace char = true) : Delimits char := by
  simp only [isSpace, Bool.or_eq_true, beq_iff_eq] at blank
  rcases blank with ((rfl | rfl) | rfl) | rfl <;> exact delimits_of_mem (by decide)

theorem delimits_of_punctuation? {char : Char} {token : Token}
    (stands : punctuation? char = some token) : Delimits char := by
  rw [punctuation?.eq_def] at stands
  split at stands
  case h_7 => contradiction
  all_goals exact delimits_of_mem (by decide)

theorem exists_punctuation? {token : Token} {chars : List Char} (spelled : TokenText token chars)
    (marked : token.isMark = true) :
    ∃ char, chars = [char] ∧ punctuation? char = some token := by
  cases spelled with
  | mark stands => exact ⟨_, rfl, stands⟩
  | keyword stands =>
      rw [keyword?.eq_def] at stands
      split at stands <;> cases stands <;> contradiction
  | number spelled => cases spelled <;> contradiction
  | text => contradiction

/-- In front of a mark, or at the end, a text ends the token before it. -/
theorem SpellsTokens.starts {tokens : List Token} {chars : List Char}
    (spells : SpellsTokens tokens chars) (marked : ∀ token ∈ tokens.head?, token.isMark = true) :
    tokens = [] ∧ chars = [] ∨ ∃ char rest, chars = char :: rest ∧ Delimits char := by
  cases spells with
  | nil blank =>
      cases chars with
      | nil => exact .inl ⟨rfl, rfl⟩
      | cons char rest =>
          exact .inr ⟨char, rest, rfl, delimits_of_isSpace (blank char List.mem_cons_self)⟩
  | @cons token tokens blanks chars rest blank spelled behind =>
      cases blanks with
      | nil =>
          obtain ⟨char, rfl, stands⟩ := exists_punctuation? spelled (marked token rfl)
          exact .inr ⟨char, rest, rfl, delimits_of_punctuation? stands⟩
      | cons char blanks =>
          exact .inr ⟨char, blanks ++ chars ++ rest, rfl,
            delimits_of_isSpace (blank char List.mem_cons_self)⟩

namespace Scan

variable {before : List Token}

/-- A delimiter and what follows it are scanned as if the token before them had ended. -/
theorem foldlM_of_delimits {scan : Scan} (flushed : scan.flush = some ⟨before, .idle⟩) {char : Char}
    (delimits : Delimits char) (rest : List Char) :
    (char :: rest).foldlM step scan = (char :: rest).foldlM step ⟨before, .idle⟩ := by
  rw [List.foldlM_cons, List.foldlM_cons, delimits.step_eq flushed]
  rfl

theorem foldlM_isSpace {blanks : List Char} (blank : ∀ char ∈ blanks, isSpace char = true) :
    blanks.foldlM step ⟨before, .idle⟩ = some ⟨before, .idle⟩ := by
  induction blanks with
  | nil => rfl
  | cons char blanks inductionHypothesis =>
      obtain ⟨here, behind⟩ := List.forall_mem_cons.1 blank
      have stepped : step ⟨before, .idle⟩ char = some ⟨before, .idle⟩ := if_pos here
      rw [List.foldlM_cons, stepped]
      exact inductionHypothesis behind

/-- A token is read from its text; if it is one that what follows has to end, once the text
has ended. -/
theorem foldlM_tokenText (before : List Token) {token : Token} {chars : List Char}
    (spelled : TokenText token chars) :
    ∃ scan, chars.foldlM step ⟨before, .idle⟩ = some scan ∧
      scan.flush = some ⟨token :: before, .idle⟩ ∧
      (token.isOpen = false → scan = ⟨token :: before, .idle⟩) := by
  cases spelled with
  | mark stands =>
      refine ⟨⟨token :: before, .idle⟩, ?_, rfl, fun _ => rfl⟩
      rw [punctuation?.eq_def] at stands
      split at stands <;> cases stands <;> rfl
  | keyword stands =>
      rw [keyword?.eq_def] at stands
      split at stands <;> cases stands <;>
        exact ⟨_, rfl, rfl, fun closed => absurd closed (by decide)⟩
  | number spelled =>
      obtain ⟨scan, scanned, flushed⟩ := foldlM_numberText spelled
      refine ⟨scan, scanned, flushed, fun closed => ?_⟩
      cases spelled <;> contradiction
  | text quoted => exact ⟨_, foldlM_quotedText quoted, rfl, fun _ => rfl⟩

/-- Separated tokens are read from each of their texts. -/
theorem foldlM_spellsTokens (before : List Token) {tokens : List Token} {chars : List Char}
    (spells : SpellsTokens tokens chars) (separated : Separated tokens) :
    ∃ scan, chars.foldlM step ⟨before, .idle⟩ = some scan ∧
      scan.flush = some ⟨tokens.reverse ++ before, .idle⟩ := by
  induction spells generalizing before with
  | nil blank => exact ⟨_, foldlM_isSpace blank, rfl⟩
  | @cons token tokens blanks chars rest blank spelled behind inductionHypothesis =>
      obtain ⟨marked, separated⟩ := List.isChain_cons.1 separated
      obtain ⟨scan, scanned, flushed, settled⟩ := foldlM_tokenText before spelled
      obtain ⟨last, last_scanned, last_flushed⟩ := inductionHypothesis (token :: before) separated
      rw [List.reverse_cons, List.append_assoc tokens.reverse, List.singleton_append,
        List.foldlM_append, List.foldlM_append, foldlM_isSpace blank, Option.bind_eq_bind,
        Option.bind_some, scanned, Option.bind_some]
      cases closed : token.isOpen with
      | false =>
          rw [settled closed]
          exact ⟨last, last_scanned, last_flushed⟩
      | true =>
          rcases behind.starts fun next member => marked next member closed with
            ⟨rfl, rfl⟩ | ⟨char, others, rfl, delimits⟩
          · exact ⟨scan, rfl, flushed⟩
          · rw [foldlM_of_delimits flushed delimits]
            exact ⟨last, last_scanned, last_flushed⟩

end Scan

/-- A value is read from each of its texts. -/
theorem ofText?_of_spells {value : Json} {text : String} (spells : Spells value text) :
    ofText? text = some value := by
  obtain ⟨scan, scanned, flushed⟩ :=
    Scan.foldlM_spellsTokens [] spells (separated_tokens value)
  have tokens_eq : tokens? text.toList = some value.tokens := by
    rw [tokens?, Scan.start, scanned, Option.bind_eq_bind, Option.bind_some, flushed]
    exact congrArg some ((congrArg List.reverse (List.append_nil _)).trans
      (List.reverse_reverse value.tokens))
  rw [ofText?, tokens_eq]
  exact ofTokens?_tokens value

end HackComputer.Json
