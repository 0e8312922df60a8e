import HackComputer.Json.Token

/-!
# Reading JSON text

Tokens are taken one after the other.  The arrays and objects that have been
opened and not closed form a list, the innermost first, so that nesting may be
as deep as memory allows.
-/

namespace HackComputer.Json

/-- An array or object that has not been closed, with what stands before the
value being read, the latest first. -/
inductive Frame where
  | array (items : List Json)
  | object (members : List (Option String × Json)) (name : Option String)
  deriving Repr

/-- What comes next, inside the open frames. -/
inductive Reading where
  /-- A value. -/
  | awaitValue (frames : List Frame)
  /-- The first item of an array, or its end. -/
  | awaitItem (frames : List Frame)
  /-- The first name in an object, or its end. -/
  | awaitFirstName (frames : List Frame)
  /-- A name, after a comma in an object. -/
  | awaitName (members : List (Option String × Json)) (frames : List Frame)
  /-- The colon after a name. -/
  | awaitColon (members : List (Option String × Json)) (name : Option String) (frames : List Frame)
  /-- What follows a complete value. -/
  | complete (value : Json) (frames : List Frame)
  deriving Repr

namespace Reading

/-- Takes a token that has to start a value. -/
def beginValue (frames : List Frame) : Token → Option Reading
  | .null => some (.complete .null frames)
  | .bool value => some (.complete (.bool value) frames)
  | .integer value => some (.complete (.integer value) frames)
  | .real => some (.complete .real frames)
  | .text contents => some (.complete (.text contents) frames)
  | .openArray => some (.awaitItem frames)
  | .openObject => some (.awaitFirstName frames)
  | .closeArray | .closeObject | .comma | .colon => none

/-- Takes one token. -/
def step : Reading → Token → Option Reading
  | .awaitValue frames, token => beginValue frames token
  | .awaitItem frames, .closeArray => some (.complete (.array []) frames)
  | .awaitItem frames, token => beginValue (.array [] :: frames) token
  | .awaitFirstName frames, .closeObject => some (.complete (.object []) frames)
  | .awaitFirstName frames, .text name => some (.awaitColon [] name frames)
  | .awaitName members frames, .text name => some (.awaitColon members name frames)
  | .awaitColon members name frames, .colon => some (.awaitValue (.object members name :: frames))
  | .complete value (.array items :: frames), .comma =>
    some (.awaitValue (.array (value :: items) :: frames))
  | .complete value (.array items :: frames), .closeArray =>
    some (.complete (.array (value :: items).reverse) frames)
  | .complete value (.object members name :: frames), .comma =>
    some (.awaitName ((name, value) :: members) frames)
  | .complete value (.object members name :: frames), .closeObject =>
    some (.complete (.object ((name, value) :: members).reverse) frames)
  | _, _ => none

/-- The value that has been read, if it is complete. -/
def result? : Reading → Option Json
  | .complete value [] => some value
  | _ => none

end Reading

/-- The value of a sequence of tokens. -/
def ofTokens? (tokens : List Token) : Option Json :=
  tokens.foldlM Reading.step (.awaitValue []) >>= Reading.result?

/-- The value of a JSON text. -/
def ofText? (text : String) : Option Json :=
  tokens? text.toList >>= ofTokens?

end HackComputer.Json
