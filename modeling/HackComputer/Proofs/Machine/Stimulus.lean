import HackComputer.Machine
import Mathlib.Data.List.Forall2

/-!
# Driving a machine from outside

A `Stimulus` is one thing that the outside does to a running machine: clock it,
set an input, poke a word, restart it.  `Stimulus.drive` feeds a list of them to
any system that responds to stimuli and collects the reports; a failed stimulus
does not end the list.  The two inductions on that list are done here once:
`drive_preserves` carries an invariant along, `drive_view` a simulation.
-/

namespace HackComputer

/-- What the outside does to a running machine. -/
inductive Stimulus where
  /-- One clock cycle. -/
  | step
  | setKeyboard (key : Word)
  | setReset (asserted : Bool)
  | poke (address value : Word)
  | reset
  deriving DecidableEq, Repr

/-- Whether a stimulus failed, and why. -/
abbrev Report := Except MachineError Unit

namespace Stimulus

/-- Is it a cycle or a key?  Nothing else happens to a program left running. -/
def isClockOrKey : Stimulus → Bool
  | .step | .setKeyboard _ => true
  | .setReset _ | .poke .. | .reset => false

/-- Is it a cycle or a change of an input line? -/
def isClockOrLine : Stimulus → Bool
  | .step | .setKeyboard _ | .setReset _ => true
  | .poke .. | .reset => false

variable {System : Type}

/-- Feeds stimuli to a system one after the other: their reports in order, and
the system at the end. -/
def drive (respond : System → Stimulus → Report × System) :
    List Stimulus → System → List Report × System
  | [], system => ([], system)
  | stimulus :: rest, system =>
      let answer := respond system stimulus
      let last := drive respond rest answer.2
      (answer.1 :: last.1, last.2)

/-- What every stimulus of a list keeps, the list keeps; and each report is as
good as its stimulus makes it in the states that are kept. -/
theorem drive_preserves {respond : System → Stimulus → Report × System} (Inv : System → Prop)
    (Good : Stimulus → Report → Prop) {stimuli : List Stimulus}
    (kept : ∀ system, Inv system → ∀ stimulus ∈ stimuli,
      Inv (respond system stimulus).2 ∧ Good stimulus (respond system stimulus).1)
    {system : System} (start : Inv system) :
    Inv (drive respond stimuli system).2 ∧
      List.Forall₂ Good stimuli (drive respond stimuli system).1 := by
  induction stimuli generalizing system with
  | nil => exact ⟨start, .nil⟩
  | cons stimulus rest inductionHypothesis =>
      obtain ⟨first, report⟩ := kept system start stimulus List.mem_cons_self
      obtain ⟨last, reports⟩ := inductionHypothesis
        (fun system inv stimulus member => kept system inv stimulus (List.mem_cons_of_mem _ member))
        first
      exact ⟨last, .cons report reports⟩

/-- If a view of one system responds as another system does, it goes on doing so
along a list of stimuli. -/
theorem drive_view {Viewed : Type} {respond : System → Stimulus → Report × System}
    {respondView : Viewed → Stimulus → Report × Viewed} (view : System → Viewed)
    (commutes : ∀ system stimulus, respondView (view system) stimulus =
      ((respond system stimulus).1, view (respond system stimulus).2))
    (stimuli : List Stimulus) (system : System) :
    drive respondView stimuli (view system) =
      ((drive respond stimuli system).1, view (drive respond stimuli system).2) := by
  induction stimuli generalizing system with
  | nil => rfl
  | cons stimulus rest inductionHypothesis =>
      simp only [drive, commutes, inductionHypothesis]

end Stimulus

namespace Machine

/-- The response of a machine to a stimulus. -/
def respond (machine : Machine) : Stimulus → Report × Machine
  | .step => (machine.step.1.map fun _ => (), machine.step.2)
  | .setKeyboard key => (.ok (), machine.setKeyboard key)
  | .setReset asserted => (.ok (), machine.setReset asserted)
  | .poke address value =>
      ((machine.poke address value).1.mapError .memory, (machine.poke address value).2)
  | .reset => (.ok (), machine.reset)

/-- The reports of a machine on a list of stimuli, and the machine at the end. -/
def drive (machine : Machine) (stimuli : List Stimulus) : List Report × Machine :=
  Stimulus.drive respond stimuli machine

end Machine

end HackComputer
