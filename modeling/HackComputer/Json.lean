/-!
# JSON values

The values that JSON text denotes, as far as this library looks at them.  The
members of an object keep their order and their repetitions.  A number with a
fraction or an exponent is never used, so its value is not kept; neither is the
contents of a string that holds half of a surrogate pair, which is no
character.
-/

namespace HackComputer

/-- A JSON value. -/
inductive Json where
  | null
  | bool (value : Bool)
  /-- A number without fraction and exponent, and other than `-0`. -/
  | integer (value : Int)
  /-- Any other number. -/
  | real
  /-- A string, without contents if it holds half of a surrogate pair. -/
  | text (contents : Option String)
  | array (items : List Json)
  /-- An object with its members in order.  A name is a string as above. -/
  | object (members : List (Option String × Json))
  deriving Repr

namespace Json

/-- A string value. -/
def ofString (contents : String) : Json :=
  .text (some contents)

/-- An object with the given members. -/
def record (members : List (String × Json)) : Json :=
  .object (members.map fun member => (some member.1, member.2))

/-- Is this the value `null`? -/
def isNull : Json → Bool
  | .null => true
  | _ => false

end Json

end HackComputer
