import HackComputer.Json

/-!
# Tokens of JSON text

Text is scanned one character at a time.  The scanner's state is the token that
is being read; numbers and keywords end with the first character that cannot
continue them.  Two values always need a comma or a colon between them, so the
reader of tokens refuses every text in which tokens run together.
-/

namespace HackComputer.Json

/-- A token of JSON text. -/
inductive Token where
  | openArray
  | closeArray
  | openObject
  | closeObject
  | comma
  | colon
  | null
  | bool (value : Bool)
  | integer (value : Int)
  | real
  | text (contents : Option String)
  deriving DecidableEq, Repr

/-! ## Numbers -/

/-- How far a number has been read. -/
inductive NumberPhase where
  /-- A minus sign. -/
  | sign
  /-- A leading zero, after which there is no further digit. -/
  | zero
  /-- The digits before the point. -/
  | whole
  /-- A point. -/
  | point
  /-- The digits after the point. -/
  | fraction
  /-- The letter of the exponent. -/
  | exponent
  /-- The sign of the exponent. -/
  | exponentSign
  /-- The digits of the exponent. -/
  | power
  deriving DecidableEq, Repr

/-- Is the character an ASCII decimal digit? -/
def isDigit (char : Char) : Bool :=
  '0' ≤ char && char ≤ '9'

/-- The phase after one more character, if the number goes on with it. -/
def NumberPhase.next? (phase : NumberPhase) (char : Char) : Option NumberPhase :=
  let isExponent := char == 'e' || char == 'E'
  match phase with
  | .sign => if char == '0' then some .zero else if isDigit char then some .whole else none
  | .zero => if char == '.' then some .point else if isExponent then some .exponent else none
  | .whole =>
    if isDigit char then some .whole
    else if char == '.' then some .point
    else if isExponent then some .exponent
    else none
  | .point => if isDigit char then some .fraction else none
  | .fraction =>
    if isDigit char then some .fraction else if isExponent then some .exponent else none
  | .exponent =>
    if char == '+' || char == '-' then some .exponentSign
    else if isDigit char then some .power
    else none
  | .exponentSign | .power => if isDigit char then some .power else none

/-- A number that is being read: its sign, its phase, and the value of the
digits before the point. -/
structure PartialNumber where
  negative : Bool
  phase : NumberPhase
  magnitude : Nat
  deriving DecidableEq, Repr

namespace PartialNumber

/-- The number that a character starts. -/
def ofChar? (char : Char) : Option PartialNumber :=
  if char == '-' then some ⟨true, .sign, 0⟩
  else if char == '0' then some ⟨false, .zero, 0⟩
  else if isDigit char then some ⟨false, .whole, char.toNat - 48⟩
  else none

/-- The number with one more character, if it goes on with it. -/
def push? (number : PartialNumber) (char : Char) : Option PartialNumber :=
  (number.phase.next? char).map fun phase =>
    { number with
      phase
      magnitude :=
        if phase == .whole then 10 * number.magnitude + (char.toNat - 48) else number.magnitude }

/-- The token of a number that ends here. -/
def token? (number : PartialNumber) : Option Token :=
  match number.phase with
  | .zero => if number.negative then some .real else some (.integer 0)
  | .whole =>
    some (.integer (if number.negative then -Int.ofNat number.magnitude
      else Int.ofNat number.magnitude))
  | .fraction | .power => some .real
  | .sign | .point | .exponent | .exponentSign => none

end PartialNumber

/-! ## Strings -/

/-- An element of a string: a character, or half of a surrogate pair, which is
written as an escape. -/
inductive Piece where
  | char (value : Char)
  | half (code : Nat)
  deriving DecidableEq, Repr

/-- Is the code the first half of a surrogate pair? -/
def isLeadingHalf (code : Nat) : Bool :=
  0xD800 ≤ code && code < 0xDC00

/-- Is the code the second half of a surrogate pair? -/
def isTrailingHalf (code : Nat) : Bool :=
  0xDC00 ≤ code && code < 0xE000

/-- The character of a surrogate pair. -/
def pairChar (leading trailing : Nat) : Char :=
  .ofNat (0x10000 + (leading - 0xD800) * 0x400 + (trailing - 0xDC00))

/-- The characters of a string in front of `rest`, if every half belongs to a
pair.  The pieces are given in reverse. -/
def joinPieces (rest : List Char) : List Piece → Option (List Char)
  | [] => some rest
  | .char value :: before => joinPieces (value :: rest) before
  | .half trailing :: .half leading :: before =>
    if isLeadingHalf leading && isTrailingHalf trailing then
      joinPieces (pairChar leading trailing :: rest) before
    else none
  | .half _ :: _ => none

/-- The piece of a numeric escape. -/
def Piece.ofCode (code : Nat) : Piece :=
  if isLeadingHalf code || isTrailingHalf code then .half code else .char (.ofNat code)

/-- The character of an escape with a single letter. -/
def shortEscape? : Char → Option Char
  | '"' => some '"'
  | '\\' => some '\\'
  | '/' => some '/'
  | 'b' => some '\x08'
  | 'f' => some '\x0c'
  | 'n' => some '\n'
  | 'r' => some '\r'
  | 't' => some '\t'
  | _ => none

/-- The value of a hexadecimal digit. -/
def hexDigit? (char : Char) : Option Nat :=
  if '0' ≤ char ∧ char ≤ '9' then some (char.toNat - 48)
  else if 'a' ≤ char ∧ char ≤ 'f' then some (char.toNat - 87)
  else if 'A' ≤ char ∧ char ≤ 'F' then some (char.toNat - 55)
  else none

/-! ## Scanning -/

/-- The token of a keyword. -/
def keyword? : List Char → Option Token
  | ['n', 'u', 'l', 'l'] => some .null
  | ['t', 'r', 'u', 'e'] => some (.bool true)
  | ['f', 'a', 'l', 's', 'e'] => some (.bool false)
  | _ => none

/-- The token of a punctuation mark. -/
def punctuation? : Char → Option Token
  | '[' => some .openArray
  | ']' => some .closeArray
  | '{' => some .openObject
  | '}' => some .closeObject
  | ',' => some .comma
  | ':' => some .colon
  | _ => none

/-- Is the character white space between tokens? -/
def isSpace (char : Char) : Bool :=
  char == ' ' || char == '\t' || char == '\n' || char == '\r'

/-- Is the character a small ASCII letter, as keywords are made of? -/
def isKeywordChar (char : Char) : Bool :=
  'a' ≤ char && char ≤ 'z'

/-- The token that is being read. -/
inductive Pending where
  /-- None. -/
  | idle
  /-- A keyword, its letters in reverse. -/
  | keyword (letters : List Char)
  | number (partialNumber : PartialNumber)
  /-- A string, its pieces in reverse. -/
  | text (pieces : List Piece)
  /-- A string after a backslash. -/
  | escape (pieces : List Piece)
  /-- A string inside a numeric escape: the digits to come and the value of
  those read. -/
  | code (pieces : List Piece) (missing : Nat) (value : Nat)
  deriving DecidableEq, Repr

/-- The state of the scanner: the tokens read, in reverse, and the one that is
being read. -/
structure Scan where
  tokens : List Token
  pending : Pending
  deriving DecidableEq, Repr

namespace Scan

/-- Before the first character. -/
def start : Scan :=
  ⟨[], .idle⟩

/-- The scan with one more token, and none being read. -/
def push (scan : Scan) (token : Token) : Scan :=
  ⟨token :: scan.tokens, .idle⟩

/-- Takes a character between tokens. -/
def begin (scan : Scan) (char : Char) : Option Scan :=
  if isSpace char then some scan
  else if char == '"' then some { scan with pending := .text [] }
  else if isKeywordChar char then some { scan with pending := .keyword [char] }
  else
    match punctuation? char with
    | some token => some (scan.push token)
    | none =>
      (PartialNumber.ofChar? char).map fun number => { scan with pending := .number number }

/-- Ends the keyword or number that is being read. -/
def flush (scan : Scan) : Option Scan :=
  match scan.pending with
  | .idle => some scan
  | .keyword letters => (keyword? letters.reverse).map scan.push
  | .number number => number.token?.map scan.push
  | .text _ | .escape _ | .code .. => none

/-- Takes one character. -/
def step (scan : Scan) (char : Char) : Option Scan :=
  match scan.pending with
  | .idle => scan.begin char
  | .keyword letters =>
    if isKeywordChar char then some { scan with pending := .keyword (char :: letters) }
    else scan.flush >>= fun scan => scan.begin char
  | .number number =>
    match number.push? char with
    | some number => some { scan with pending := .number number }
    | none => scan.flush >>= fun scan => scan.begin char
  | .text pieces =>
    if char == '"' then
      some (scan.push (.text ((joinPieces [] pieces).map String.ofList)))
    else if char == '\\' then some { scan with pending := .escape pieces }
    else if char < ' ' then none
    else some { scan with pending := .text (.char char :: pieces) }
  | .escape pieces =>
    if char == 'u' then some { scan with pending := .code pieces 3 0 }
    else (shortEscape? char).map fun value => { scan with pending := .text (.char value :: pieces) }
  | .code pieces missing value =>
    (hexDigit? char).map fun digit =>
      let value := 16 * value + digit
      match missing with
      | 0 => { scan with pending := .text (.ofCode value :: pieces) }
      | missing + 1 => { scan with pending := .code pieces missing value }

end Scan

/-- The tokens of a JSON text. -/
def tokens? (chars : List Char) : Option (List Token) := do
  let scan ← chars.foldlM Scan.step .start
  let scan ← scan.flush
  return scan.tokens.reverse

end HackComputer.Json
