import HackComputer.Memory.Rom
import HackComputer.Memory.Screen

/-!
# Data memory

RAM, screen and keyboard behind one address decoder.  A cycle reads and writes
through `read` and `write`, which look at fifteen address bits; the outside
inspects cells through `peek` and `poke`, which take the address as it is and
reach RAM and screen only.
-/

namespace HackComputer

/-- What happens when a cycle touches an unmapped address. -/
inductive UnmappedPolicy where
  /-- Reads give zero and writes are dropped. -/
  | ignore
  /-- The access is an error. -/
  | fault
  deriving DecidableEq, Repr

/-- Data memory. -/
structure Memory where
  ram : Ram ramSize
  screen : Screen
  /-- The code of the key that is held down, zero for none. -/
  keyboard : Word
  unmapped : UnmappedPolicy
  deriving DecidableEq, Repr

namespace Memory

/-- Clear memory. -/
def zero (unmapped : UnmappedPolicy) : Memory where
  ram := .zero
  screen := .zero
  keyboard := 0
  unmapped := unmapped

/-- The word that a cycle reads at an address. -/
def read (memory : Memory) (address : Word) : Except MemoryError Word :=
  match Location.decode address with
  | .ram index => .ok (memory.ram.read index)
  | .screen offset => .ok (memory.screen.read offset)
  | .keyboard => .ok memory.keyboard
  | .unmapped low =>
    match memory.unmapped with
    | .ignore => .ok 0
    | .fault => .error (.unmappedAccess low)

/-- Memory with `value` stored at an address that has storage.  The keyboard
and the unmapped range keep nothing. -/
def store (memory : Memory) (address value : Word) : Memory :=
  match Location.decode address with
  | .ram index => { memory with ram := memory.ram.write index value }
  | .screen offset => { memory with screen := memory.screen.write offset value }
  | .keyboard => memory
  | .unmapped _ => memory

/-- The clock edge of memory: store `value` if `load` is asserted. -/
def write (memory : Memory) (address value : Word) (load : Bool) :
    Except MemoryError Unit × Memory :=
  if load then
    match Location.decode address, memory.unmapped with
    | .unmapped low, .fault => (.error (.unmappedAccess low), memory)
    | _, _ => (.ok (), memory.store address value)
  else (.ok (), memory)

/-- What an address stands for outside the clock, where it is taken as it is:
with bit 15 set it stands for nothing. -/
def direct (address : Word) : Except MemoryError Location :=
  if address.toNat < 0x8000 then .ok (.decode address) else .error (.addressOutOfRange address)

/-- The RAM or screen word at an address, outside the clock. -/
def peek (memory : Memory) (address : Word) : Except MemoryError Word :=
  match direct address with
  | .error cause => .error cause
  | .ok (.ram index) => .ok (memory.ram.read index)
  | .ok (.screen offset) => .ok (memory.screen.read offset)
  | .ok _ => .error (.addressOutOfRange address)

/-- Stores a RAM or screen word, outside the clock. -/
def poke (memory : Memory) (address value : Word) : Except MemoryError Unit × Memory :=
  match direct address with
  | .error cause => (.error cause, memory)
  | .ok (.ram index) => (.ok (), { memory with ram := memory.ram.write index value })
  | .ok (.screen offset) => (.ok (), { memory with screen := memory.screen.write offset value })
  | .ok _ => (.error (.addressOutOfRange address), memory)

/-- Sets the key that is held down.  No cycle does this. -/
def setKeyboard (memory : Memory) (key : Word) : Memory :=
  { memory with keyboard := key }

/-- A stored word is read back at every address that agrees in fifteen bits, if
there is storage below the keyboard; all else is read as before. -/
theorem read_store (memory : Memory) (stored address value : Word) :
    (memory.store stored value).read address =
      if stored.low15 = address.low15 ∧ stored.low15.toNat < keyboardAddress then .ok value
      else memory.read address := by
  have := ramSize_add_screenSize
  simp only [← Location.decode_inj, store]
  cases found : Location.decode stored with
  | ram index =>
    have below : stored.low15.toNat < keyboardAddress := by
      have := index.isLt
      rw [Location.decode_eq_ram_iff.1 found]
      omega
    simp only [below, and_true, read]
    cases Location.decode address <;> simp [Ram.read_write]
    split <;> rfl
  | screen offset =>
    have below : stored.low15.toNat < keyboardAddress := by
      have := offset.isLt
      rw [Location.decode_eq_screen_iff.1 found]
      omega
    simp only [below, and_true, read]
    cases Location.decode address <;> simp [Screen.read, Screen.write, Ram.read_write]
    split <;> rfl
  | keyboard =>
    have above : ¬stored.low15.toNat < keyboardAddress := by
      have := Location.decode_eq_keyboard_iff.1 found
      omega
    simp [above]
  | unmapped low =>
    have above : ¬stored.low15.toNat < keyboardAddress := by
      have := (Location.decode_eq_unmapped_iff.1 found).1
      omega
    simp [above]

end Memory

end HackComputer
