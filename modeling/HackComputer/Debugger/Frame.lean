import HackComputer.Debugger
import HackComputer.Debugger.Canvas
import HackComputer.Inspect

/-!
# The debugger's frame

Two columns of panels.  On the left, with two fifths of the width: the program
around the next instruction, the processor, the status.  On the right: the
screen, with three fifths of the height, RAM, and the keys.
-/

namespace HackComputer.Debugger

open Canvas

/-- `percent` hundredths of a length, rounded to the nearest number. -/
def portion (percent length : Nat) : Nat :=
  (percent * length + 50) / 100

/-- The style of the line or cell that execution is at. -/
def highlight : Style :=
  { color := .yellow, bold := true }

/-- The window on the program. -/
def programPanel (debugger : Debugger) (width height : Nat) : List Row :=
  let lines := (debugger.codeWindow (inner height)).map fun line =>
    let isBreakpoint := debugger.breakpoints.contains (.ofNat 16 line.address)
    let marker := match isBreakpoint, line.current with
      | true, true => "●▶"
      | true, false => "● "
      | false, true => " ▶"
      | false, false => "  "
    let style : Style :=
      if line.current then highlight else if isBreakpoint then { color := .red } else {}
    fit (inner width) style <| styled style <|
      marker ++ " " ++ Text.zeroPadded 5 line.address ++ "  " ++ line.text
  { title := "Program", color := .cyan, lines : Panel }.draw width height

/-- A register with its bits and its signed value. -/
def registerRow (name : String) (value : Word) : Row :=
  plain (Text.alignLeft 3 name) ++ styled { color := .white } value.toBinary ++
    styled { color := .gray } ("  " ++ Text.alignRight 6 (toString value.toInt))

/-- The registers, the keyboard and the run state.  The keyboard is marked
while the user is typing into it. -/
def cpuPanel (debugger : Debugger) (typing : Bool) (width height : Nat) : List Row :=
  let machine := debugger.machine
  let stateColor : Color := match machine.state with
    | .running => .green
    | .halted => .red
  let lines :=
    [registerRow "A" machine.cpu.a,
      registerRow "D" machine.cpu.d,
      plain "PC " ++ styled { color := .yellow } (Text.zeroPadded 5 machine.cpu.pc.toNat) ++
        plain "  KBD " ++
        styled { color := if typing then .green else .gray }
          (toString machine.memory.keyboard.toNat),
      plain (toString machine.cycles ++ " cycles  ") ++
        styled { color := stateColor } (inspect machine.state)]
  { title := "CPU", color := .green, lines : Panel }.draw width height

/-- The status line. -/
def statusPanel (debugger : Debugger) (width height : Nat) : List Row :=
  { title := "Status", color := .white, lines := [plain debugger.status.text] : Panel }.draw
    width height

/-- The machine's screen, as large as fits. -/
def screenPanel (debugger : Debugger) (width height : Nat) : List Row :=
  let picture := debugger.machine.memory.screen.render (inner width) (inner height)
  let lines := picture.map fun line =>
    plain (line.map fun char => if char == '#' then '█' else ' ')
  { title := "Screen", color := .blue, lines : Panel }.draw width height

/-- The window on RAM.  The cell that A addresses is highlighted. -/
def memoryPanel (debugger : Debugger) (width height : Nat) : List Row :=
  let addressed := debugger.machine.cpu.addressM.toNat
  let lines := (debugger.memoryWindow (inner height)).map fun (address, value) =>
    let style : Style :=
      if address = addressed then highlight
      else if value = 0 then { color := .darkGray }
      else { color := .white }
    fit (inner width) style <| styled style <|
      Text.zeroPadded 5 address ++ "  " ++ value.toBinary ++ "  " ++
        Text.alignRight 6 (toString value.toInt)
  { title := "RAM", color := .magenta, lines : Panel }.draw width height

/-- The keys that the debugger reacts to. -/
def keysPanel (width height : Nat) : List Row :=
  let style : Style := { color := .darkGray }
  let lines :=
    ["s step  r run  p pause  b breakpoint  x reset  q quit",
      "k type into KBD (Ctrl-K releases)  ↑↓ PgUp PgDn scroll RAM"].map (styled style)
  { title := "Keys", color := .darkGray, filler := style, lines : Panel }.draw width height

/-- The whole frame. -/
def frame (debugger : Debugger) (typing : Bool) (width height : Nat) : List Row :=
  let leftWidth := portion 40 width
  let rightWidth := width - leftWidth
  let screenHeight := portion 60 height
  beside
    (debugger.programPanel leftWidth (height - 9) ++ debugger.cpuPanel typing leftWidth 6 ++
      debugger.statusPanel leftWidth 3)
    (debugger.screenPanel rightWidth screenHeight ++
      debugger.memoryPanel rightWidth (height - screenHeight - 4) ++ keysPanel rightWidth 4)

end HackComputer.Debugger
