import HackComputer.Json.Reader
import HackComputer.Json.Writer
import HackComputer.Word

/-!
# JSON forms of types

A type with a JSON form is written as one value and read from every value that
means the same.  A structure is written as an object with its fields in order;
it is read from an object with its fields in any order, among others, or from
an array of its fields in order.  A case of an enumeration is written as its
name, or as an object with its name and what it carries.
-/

namespace HackComputer

/-- A type whose values are written as JSON and read back. -/
class JsonForm (α : Type) where
  /-- The value that is written. -/
  toJson : α → Json
  /-- Reads a value that means an element of the type. -/
  ofJson? : Json → Option α

export JsonForm (toJson ofJson?)

namespace JsonForm

/-- Reads an element of a type from JSON text. -/
def ofText? {α : Type} [JsonForm α] (text : String) : Option α :=
  Json.ofText? text >>= ofJson?

/-- The JSON text of an element of a type. -/
def text {α : Type} [JsonForm α] (layout : Json.Layout) (value : α) : String :=
  (toJson value).render layout

end JsonForm

namespace Json

/-! ## Structures -/

/-- The value of the only member with a name.  The outer option is `none` if
there are several, the inner one if there is none. -/
def uniqueMember? (members : List (Option String × Json)) (name : String) :
    Option (Option Json) :=
  match members.filter fun member => member.1 == some name with
  | [] => some none
  | [member] => some (some member.2)
  | _ => none

/-- The fields of a structure that are present, in the order of `names`.  Other
members of an object are passed over, provided that their names have contents;
an array gives the fields in order and may not be longer than `names`. -/
def fields? (names : List String) : Json → Option (List (String × Json))
  | .object members =>
    if members.all fun member => member.1.isSome then do
      let values ← names.mapM (uniqueMember? members)
      return (names.zip values).filterMap fun field => field.2.map fun value => (field.1, value)
    else none
  | .array items => if items.length ≤ names.length then some (names.zip items) else none
  | _ => none

/-- Reads a field that has to be present. -/
def field? {α : Type} [JsonForm α] (fields : List (String × Json)) (name : String) : Option α :=
  fields.lookup name >>= ofJson?

/-- Reads a field that has the value `default` when it is absent. -/
def fieldD? {α : Type} [JsonForm α] (fields : List (String × Json)) (name : String)
    (default : α) : Option α :=
  match fields.lookup name with
  | none => some default
  | some value => ofJson? value

/-! ## Enumerations -/

/-- A case that carries a value. -/
def ofCase {α : Type} [JsonForm α] (name : String) (value : α) : Json :=
  record [(name, toJson value)]

/-- The case that a value names, with the value that stands beside the name. -/
def case? : Json → Option (String × Option Json)
  | .text (some name) => some (name, none)
  | .object [(some name, value)] => some (name, some value)
  | _ => none

/-- The case without contents that a value names: its name alone, or its name
with `null`. -/
def unitCase? (json : Json) : Option String :=
  match json.case? with
  | some (name, none) => some name
  | some (name, some .null) => some name
  | _ => none

end Json

/-! ## Forms of basic types -/

instance : JsonForm Bool where
  toJson := .bool
  ofJson?
    | .bool value => some value
    | _ => none

/-- Words and sizes are written as unsigned numbers. -/
instance {width : Nat} : JsonForm (BitVec width) where
  toJson word := .integer word.toNat
  ofJson?
    | .integer value =>
      if 0 ≤ value ∧ value.toNat < Nat.pow 2 width then some (.ofNat width value.toNat) else none
    | _ => none

instance {α : Type} [JsonForm α] : JsonForm (List α) where
  toJson values := .array (values.map toJson)
  ofJson?
    | .array items => items.mapM ofJson?
    | _ => none

/-- An optional value is written as itself, or as `null`. -/
instance {α : Type} [JsonForm α] : JsonForm (Option α) where
  toJson
    | none => .null
    | some value => toJson value
  ofJson?
    | .null => some none
    | json => (ofJson? json).map some

end HackComputer
