import HackComputer.Memory

/-!
# Configuration of a machine
-/

namespace HackComputer

/-- The settings that are fixed when a machine is built. -/
structure Config where
  /-- What happens when a cycle touches an unmapped address. -/
  unmapped : UnmappedPolicy := .ignore
  /-- Whether a machine that enters an idle loop is marked halted. -/
  haltDetection : Bool := true
  deriving DecidableEq, Repr

end HackComputer
