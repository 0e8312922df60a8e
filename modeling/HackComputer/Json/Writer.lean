import HackComputer.Json
import HackComputer.Word

/-!
# Writing JSON text

Two layouts of one grammar: compact text has no white space; indented text has
every item and every member on a line of its own, two blanks deeper than the
brackets around it.
-/

namespace HackComputer.Json

/-- Where white space is put. -/
inductive Layout where
  | compact
  | indented
  deriving DecidableEq, Repr

namespace Layout

/-- What stands before an item at nesting depth `depth`. -/
def lineBreak (layout : Layout) (depth : Nat) : String :=
  match layout with
  | .compact => ""
  | .indented => "\n" ++ String.ofList (List.replicate (2 * depth) ' ')

/-- What stands between a name and its value. -/
def colon : Layout → String
  | .compact => ":"
  | .indented => ": "

end Layout

/-- What is written in a string for a character that may not stand there:
quotes, backslashes and control characters. -/
def escape? (char : Char) : Option String :=
  if char = '"' then some "\\\""
  else if char = '\\' then some "\\\\"
  else if char = '\x08' then some "\\b"
  else if char = '\x0c' then some "\\f"
  else if char = '\n' then some "\\n"
  else if char = '\r' then some "\\r"
  else if char = '\t' then some "\\t"
  else if char < ' ' then some ("\\u" ++ String.ofList (Word.hexDigits (.ofNat 16 char.toNat)))
  else none

/-- `out` with a character of a string after it. -/
def pushChar (out : String) (char : Char) : String :=
  match escape? char with
  | some replacement => out ++ replacement
  | none => out.push char

/-- A string with its quotes.  One without contents is written as half of a
surrogate pair. -/
def quoted : Option String → String
  | none => "\"\\ud800\""
  | some contents => (contents.toList.foldl pushChar "\"").push '"'

mutual

/-- `out` with the text of a value after it. -/
def write (layout : Layout) (depth : Nat) (out : String) : Json → String
  | .null => out ++ "null"
  | .bool value => out ++ (if value then "true" else "false")
  | .integer value => out ++ toString value
  | .real => out ++ "0.5"
  | .text contents => out ++ quoted contents
  | .array [] => out ++ "[]"
  | .array (item :: items) =>
    writeItems layout depth
      (write layout (depth + 1) (out ++ "[" ++ layout.lineBreak (depth + 1)) item) items
  | .object [] => out ++ "\x7b\x7d"
  | .object ((name, value) :: members) =>
    writeMembers layout depth
      (write layout (depth + 1)
        (out ++ "\x7b" ++ layout.lineBreak (depth + 1) ++ quoted name ++ layout.colon) value)
      members

/-- `out` with the remaining items of an array and its end after it. -/
def writeItems (layout : Layout) (depth : Nat) (out : String) : List Json → String
  | [] => out ++ layout.lineBreak depth ++ "]"
  | item :: items =>
    writeItems layout depth
      (write layout (depth + 1) (out ++ "," ++ layout.lineBreak (depth + 1)) item) items

/-- `out` with the remaining members of an object and its end after it. -/
def writeMembers (layout : Layout) (depth : Nat) (out : String) :
    List (Option String × Json) → String
  | [] => out ++ layout.lineBreak depth ++ "\x7d"
  | (name, value) :: members =>
    writeMembers layout depth
      (write layout (depth + 1)
        (out ++ "," ++ layout.lineBreak (depth + 1) ++ quoted name ++ layout.colon) value)
      members

end

/-- The text of a value in a layout. -/
def render (layout : Layout) (value : Json) : String :=
  write layout 0 "" value

end HackComputer.Json
