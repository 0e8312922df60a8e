import HackComputer.Memory.Region

/-!
# Failed memory operations
-/

namespace HackComputer

/-- Why a memory operation is refused. -/
inductive MemoryError where
  /-- A direct access outside RAM and screen. -/
  | addressOutOfRange (address : Word)
  /-- A program of `size` words, more than program memory has cells. -/
  | programTooLarge (size : Nat)
  /-- A cycle touched an unmapped address, and the policy forbids it. -/
  | unmappedAccess (address : Word)
  deriving DecidableEq, Repr

/-- The text that reports a refused memory operation. -/
def MemoryError.message : MemoryError → String
  | .addressOutOfRange address =>
    "address " ++ address.hex ++ " out of range for RAM/screen access (0x0000-0x5fff)"
  | .programTooLarge size => s!"program size {size} exceeds ROM capacity {romSize}"
  | .unmappedAccess address => "access to unmapped address " ++ address.hex

end HackComputer
