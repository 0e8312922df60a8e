/-!
# Control sequences

A terminal takes some characters as commands and not as text: the control
characters, and the sequences that the escape character opens.  A text that
quotes what it was given leaves them out, so that it can be shown anywhere.

White space counts as text, also in an open sequence of the short kinds.
Behind such white space everything is text up to the next control character,
where the sequence goes on.
-/

namespace HackComputer.Text

/-- The kinds of control sequence that can be open, with how far they are
read. -/
inductive ControlState where
  /-- No sequence is open. -/
  | ground
  /-- An escape character has been read. -/
  | escape
  /-- An escape character and intermediate characters have been read. -/
  | escapeIntermediate
  /-- A control sequence, which ends with its first letter. -/
  | control
  /-- The head of a device control string. -/
  | device
  /-- The parameters of a device control string. -/
  | deviceParameter
  /-- The intermediate characters of a device control string. -/
  | deviceIntermediate
  /-- The body of a string, which ends with the control code `0x9C`. -/
  | string
  /-- A command to the operating system, which ends with the bell. -/
  | systemCommand
  deriving DecidableEq, Repr

/-- Is the character one of the control characters `0x00` to `0x1F` and
`0x7F`? -/
def isControl (char : Char) : Bool :=
  char < ' ' || char = '\x7f'

/-- Is the character a control character that moves the place of writing? -/
def isLayout (char : Char) : Bool :=
  char = '\t' || char = '\n' || char = '\x0c' || char = '\r'

namespace ControlState

/-- The state after a printable ASCII character. -/
def afterPrintable (char : Char) : ControlState → ControlState
  | .ground => .ground
  | .escape =>
    if char ≤ '/' then .escapeIntermediate
    else
      match char with
      | '[' => .control
      | ']' => .systemCommand
      | 'P' => .device
      | 'X' | '^' | '_' => .string
      | _ => .ground
  | .escapeIntermediate => if char ≤ '/' then .escapeIntermediate else .ground
  | .control => if char ≤ '?' then .control else .ground
  | .device =>
    if char ≤ '/' then .deviceIntermediate
    else if char ≤ '?' then .deviceParameter
    else .string
  | .deviceParameter =>
    if char ≤ '/' then .deviceIntermediate
    else if char ≤ ';' then .deviceParameter
    else .string
  | .deviceIntermediate => if char ≤ '/' then .deviceIntermediate else .string
  | .string => .string
  | .systemCommand => .systemCommand

/-- The state after a control character. -/
def afterControl (char : Char) (state : ControlState) : ControlState :=
  match char with
  | '\x1b' => .escape
  | '\x18' | '\x1a' => .ground
  | '\x07' => if state = .systemCommand then .ground else state
  | _ => state

/-- The state after a character outside ASCII.  Strings are read byte by byte,
so they also end inside a character. -/
def afterWide (char : Char) (state : ControlState) : ControlState :=
  if state = .string && (String.utf8EncodeChar char).contains 0x9C then .ground else state

/-- The state after a character. -/
def next (state : ControlState) (char : Char) : ControlState :=
  if isControl char then state.afterControl char
  else if char < '\x7f' then state.afterPrintable char
  else state.afterWide char

/-- Is the character text in this state? -/
def shows (state : ControlState) (char : Char) : Bool :=
  match state with
  | .ground => isLayout char || !isControl char
  | .escape | .escapeIntermediate | .control => isLayout char
  | _ => false

/-- The characters that are text, from a state on; `inText` says whether the
character before them was text. -/
def shown : ControlState → Bool → List Char → List Char
  | _, _, [] => []
  | state, true, char :: rest =>
    if ground.shows char then
      char :: shown (if char ≤ '\x7f' then state else .ground) true rest
    else shown (state.next char) false rest
  | state, false, char :: rest =>
    if state.shows char then char :: shown state true rest
    else shown (state.next char) false rest

end ControlState

/-- A text without its control characters and control sequences; only white
space is left of them. -/
def withoutControls (text : String) : String :=
  String.ofList (ControlState.ground.shown true text.toList)

end HackComputer.Text
