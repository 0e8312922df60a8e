import HackComputer.Proofs.Json.Reading
import Mathlib.Data.List.Forall2

/-!
# The grammar of JSON text

What the texts of a value are, apart from how they are read: the tokens of the value, each
in one of its spellings, with any white space around them (`Spells`).  A number may have a
sign, a fraction and an exponent; a character of a string may be written as an escape, and
one outside the first plane as a pair of escapes.  The reader accepts exactly these texts
(`ofText?_eq_some_iff_spells`).
-/

namespace HackComputer.Json

/-! ## Numbers -/

/-- One or more decimal digits. -/
def IsDigits (chars : List Char) : Prop :=
  chars ≠ [] ∧ ∀ char ∈ chars, isDigit char = true

/-- The digits in front of a point: of more than one digit the first is not zero. -/
def IsWhole (chars : List Char) : Prop :=
  IsDigits chars ∧ (chars.head? = some '0' → chars = ['0'])

theorem IsDigits.singleton {digit : Char} (decimal : isDigit digit = true) : IsDigits [digit] := by
  exact ⟨List.cons_ne_nil _ _, List.forall_mem_singleton.2 decimal⟩

theorem IsWhole.singleton {digit : Char} (decimal : isDigit digit = true) : IsWhole [digit] := by
  refine ⟨.singleton decimal, fun zero => ?_⟩
  cases zero
  rfl

/-- Nothing, or a point and digits. -/
inductive IsFraction : List Char → Prop
  | absent : IsFraction []
  | present {digits : List Char} (decimal : IsDigits digits) : IsFraction ('.' :: digits)

/-- Nothing, or the letter of an exponent, an optional sign and digits. -/
inductive IsExponent : List Char → Prop
  | absent : IsExponent []
  | unsigned {letter : Char} {digits : List Char} (marked : letter = 'e' ∨ letter = 'E')
      (decimal : IsDigits digits) : IsExponent (letter :: digits)
  | signed {letter sign : Char} {digits : List Char} (marked : letter = 'e' ∨ letter = 'E')
      (signed : sign = '+' ∨ sign = '-') (decimal : IsDigits digits) :
      IsExponent (letter :: sign :: digits)

/-- What stands in front of the digits of a number. -/
def signText (negative : Bool) : List Char :=
  if negative then ['-'] else []

/-- The text is a number of this kind.  A number with a fraction or an exponent is no
integer, and neither is `-0`. -/
inductive NumberText : Token → List Char → Prop
  | nonneg {whole : List Char} (natural : IsWhole whole) :
      NumberText (.integer (Nat.ofDigitChars 10 whole 0)) whole
  | negative {whole : List Char} (natural : IsWhole whole) (nonzero : whole ≠ ['0']) :
      NumberText (.integer (-Nat.ofDigitChars 10 whole 0)) ('-' :: whole)
  | negativeZero : NumberText .real ['-', '0']
  | real {negative : Bool} {whole fraction exponent : List Char} (natural : IsWhole whole)
      (fractional : IsFraction fraction) (exponential : IsExponent exponent)
      (inexact : fraction ++ exponent ≠ []) :
      NumberText .real (signText negative ++ whole ++ fraction ++ exponent)

/-! ## Strings -/

/-- The text stands for this element of a string. -/
inductive PieceText : Piece → List Char → Prop
  | plain {char : Char} (printable : ¬char < ' ') (no_quote : char ≠ '"')
      (no_backslash : char ≠ '\\') : PieceText (.char char) [char]
  | short {letter char : Char} (stands : shortEscape? letter = some char) :
      PieceText (.char char) ['\\', letter]
  | code {a b c d : Char} {w x y z : Nat} (first : hexDigit? a = some w)
      (second : hexDigit? b = some x) (third : hexDigit? c = some y)
      (fourth : hexDigit? d = some z) :
      PieceText (.ofCode (16 * (16 * (16 * w + x) + y) + z)) ['\\', 'u', a, b, c, d]

/-- The characters of a string, if each half of a pair stands beside the other. -/
def contents? : List Piece → Option (List Char)
  | [] => some []
  | .char value :: rest => (contents? rest).map (value :: ·)
  | .half leading :: .half trailing :: rest =>
    if isLeadingHalf leading && isTrailingHalf trailing then
      (contents? rest).map (pairChar leading trailing :: ·)
    else none
  | .half _ :: _ => none

/-- The text is a string with these contents, in its quotes. -/
def QuotedText (contents : Option String) (chars : List Char) : Prop :=
  ∃ pieces texts, List.Forall₂ PieceText pieces texts ∧
    contents = (contents? pieces).map String.ofList ∧ chars = '"' :: (texts.flatten ++ ['"'])

/-! ## Values -/

/-- The text is this token. -/
inductive TokenText : Token → List Char → Prop
  | mark {token : Token} {char : Char} (stands : punctuation? char = some token) :
      TokenText token [char]
  | keyword {token : Token} {letters : List Char} (stands : keyword? letters = some token) :
      TokenText token letters
  | number {token : Token} {chars : List Char} (spelled : NumberText token chars) :
      TokenText token chars
  | text {contents : Option String} {chars : List Char} (quoted : QuotedText contents chars) :
      TokenText (.text contents) chars

/-- The text is these tokens, with white space in front of each and behind the last. -/
inductive SpellsTokens : List Token → List Char → Prop
  | nil {blanks : List Char} (blank : ∀ char ∈ blanks, isSpace char = true) :
      SpellsTokens [] blanks
  | cons {token : Token} {tokens : List Token} {blanks chars rest : List Char}
      (blank : ∀ char ∈ blanks, isSpace char = true) (spelled : TokenText token chars)
      (behind : SpellsTokens tokens rest) : SpellsTokens (token :: tokens) (blanks ++ chars ++ rest)

namespace SpellsTokens

variable {tokens : List Token} {chars : List Char} (spells : SpellsTokens tokens chars)

include spells

theorem append_blanks {blanks : List Char} (blank : ∀ char ∈ blanks, isSpace char = true) :
    SpellsTokens tokens (chars ++ blanks) := by
  induction spells with
  | nil before => exact .nil (List.forall_mem_append.2 ⟨before, blank⟩)
  | cons before spelled _ inductionHypothesis =>
      rw [List.append_assoc]
      exact .cons before spelled inductionHypothesis

theorem append_token {token : Token} {last : List Char} (spelled : TokenText token last) :
    SpellsTokens (tokens ++ [token]) (chars ++ last) := by
  induction spells with
  | nil before =>
      have alone := SpellsTokens.cons before spelled (.nil (List.forall_mem_nil _))
      rw [List.append_nil] at alone
      exact alone
  | cons before first _ inductionHypothesis =>
      rw [List.append_assoc]
      exact .cons before first inductionHypothesis

end SpellsTokens

/-- The text is a text of the value. -/
def Spells (value : Json) (text : String) : Prop :=
  SpellsTokens value.tokens text.toList

end HackComputer.Json
