import HackComputer.Debugger
import HackComputer.Proofs.Memory.Dump

/-!
# The window on RAM

The window starts at a cell that exists, and only scrolling moves it.  So it does if its
place is a bare number of 64 bits: scrolling adds a signed number to it, stays at the end of
the numbers that the sum would pass, and then goes back to the last cell if it is behind it.
The cells from there on are listed, one for each row that is wanted, up to the last cell.
-/

namespace HackComputer

namespace Debugger

/-! ## What a user does -/

/-- What a user does with a debugger. -/
inductive Action where
  | step
  | run
  | tick
  /-- From now on batches are `cycles` cycles long. -/
  | setBatch (cycles : Nat)
  | reset
  | toggleBreakpoint
  | addBreakpoint (pc : Word)
  | pressKey (key : Word)
  | setPc (value : Word)
  | poke (address value : Word)
  /-- Moves the window on RAM by a signed number of 64 bits. -/
  | scroll (delta : Size)
  deriving DecidableEq, Repr

/-- The debugger after an action. -/
def act (debugger : Debugger) : Action → Debugger
  | .step => debugger.step
  | .run => debugger.run
  | .tick => debugger.tick
  | .setBatch cycles => { debugger with cyclesPerTick := cycles }
  | .reset => debugger.reset
  | .toggleBreakpoint => debugger.toggleBreakpoint
  | .addBreakpoint pc => (debugger.addBreakpoint pc).2
  | .pressKey key => debugger.pressKey key
  | .setPc value => debugger.setPc value
  | .poke address value => (debugger.poke address value).2
  | .scroll delta => debugger.scrollBy delta.toInt

/-- The debugger after a list of actions. -/
def afterActions (debugger : Debugger) (actions : List Action) : Debugger :=
  actions.foldl act debugger

theorem scroll_step (debugger : Debugger) : debugger.step.scroll = debugger.scroll := by
  rw [step]
  split <;> rfl

theorem scroll_tickFor (count : Nat) (debugger : Debugger) :
    (tickFor count debugger).scroll = debugger.scroll := by
  induction count generalizing debugger with
  | zero => rfl
  | succ count inductionHypothesis =>
      rw [tickFor]
      split
      · rfl
      · split
        · rfl
        · dsimp only
          split
          · exact debugger.scroll_step
          · rw [inductionHypothesis, scroll_step]

theorem scroll_toggleBreakpoint (debugger : Debugger) :
    debugger.toggleBreakpoint.scroll = debugger.scroll := by
  simp only [toggleBreakpoint]
  split <;> rfl

end Debugger

/-! ## The window in 64 bits -/

namespace Checked

/-- The sum of a number and a signed one, or the end of the numbers that it lies behind. -/
def sumOrBound (x delta : Size) : Size :=
  let carries := decide (2 ^ 64 ≤ x.toNat + delta.toNat)
  if carries = delta.msb then x + delta else if carries then .allOnes 64 else 0

/-- The place of the window after it is moved. -/
def scrolled (scroll delta : Size) : Size :=
  .ofNat 64 (min (sumOrBound scroll delta).toNat (ramSize - 1))

/-- The place of the window after an action. -/
def placeAfter (scroll : Size) : Debugger.Action → Size
  | .scroll delta => scrolled scroll delta
  | .step | .run | .tick | .setBatch _ | .reset | .toggleBreakpoint | .addBreakpoint _
  | .pressKey _ | .setPc _ | .poke .. => scroll

/-- The window on RAM, with its place as a bare number. -/
def memoryWindow (machine : Machine) (scroll : Size) (rows : Nat) :
    Checked (List (Nat × Word)) := do
  let room ← difference ramSize scroll.toNat
  dump machine.memory.ram scroll.toNat (min rows room)

theorem toNat_sumOrBound (x delta : Size) :
    (sumOrBound x delta).toNat = min (x.toNat + delta.toInt).toNat (2 ^ 64 - 1) := by
  have x_lt := x.isLt
  have delta_lt := delta.isLt
  rw [sumOrBound, BitVec.toInt_eq_msb_cond]
  -- A sum of words carries if it is too large, or if a negative number does not reach below zero.
  by_cases carry : 2 ^ 64 ≤ x.toNat + delta.toNat
  · cases sign : delta.msb with
    | false =>
        simp only [carry, decide_true, Bool.true_eq_false, if_false, if_true, Bool.false_eq_true,
          BitVec.toNat_allOnes]
        omega
    | true =>
        simp only [carry, decide_true, if_true, BitVec.toNat_add]
        omega
  · cases sign : delta.msb with
    | false =>
        simp only [carry, decide_false, if_true, Bool.false_eq_true, if_false, BitVec.toNat_add]
        omega
    | true =>
        simp only [carry, decide_false, Bool.false_eq_true, if_false, if_true,
          BitVec.ofNat_eq_ofNat, BitVec.toNat_zero]
        omega

theorem toNat_scrolled (scroll delta : Size) :
    (scrolled scroll delta).toNat = min (scroll.toNat + delta.toInt).toNat (ramSize - 1) := by
  have small : ramSize - 1 < 2 ^ 64 := by decide
  rw [scrolled, BitVec.toNat_ofNat, toNat_sumOrBound]
  omega

variable {debugger : Debugger} {scroll : Size}

/-- Only scrolling moves the window, and the bare number follows it. -/
theorem toNat_placeAfter (placed : (debugger.scroll : Nat) = scroll.toNat)
    (action : Debugger.Action) :
    ((debugger.act action).scroll : Nat) = (placeAfter scroll action).toNat := by
  cases action with
  | scroll delta =>
      rw [placeAfter, toNat_scrolled, ← placed]
      rfl
  | step => rw [Debugger.act, debugger.scroll_step, placed, placeAfter]
  | tick => rw [Debugger.act, Debugger.tick, Debugger.scroll_tickFor, placed, placeAfter]
  | toggleBreakpoint => rw [Debugger.act, debugger.scroll_toggleBreakpoint, placed, placeAfter]
  | run => exact placed
  | setBatch cycles => exact placed
  | reset => exact placed
  | addBreakpoint pc => exact placed
  | pressKey key => exact placed
  | setPc value => exact placed
  | poke address value => exact placed

theorem toNat_foldl_placeAfter (placed : (debugger.scroll : Nat) = scroll.toNat)
    (actions : List Debugger.Action) :
    ((debugger.afterActions actions).scroll : Nat) = (actions.foldl placeAfter scroll).toNat := by
  induction actions generalizing debugger scroll with
  | nil => exact placed
  | cons action actions inductionHypothesis =>
      exact inductionHypothesis (toNat_placeAfter placed action)

/-- The window does not start behind the last cell, so there is room to count. -/
theorem memoryWindow_eq (placed : (debugger.scroll : Nat) = scroll.toNat) (rows : Nat) :
    memoryWindow debugger.machine scroll rows = .ok (debugger.memoryWindow rows) := by
  have inside : scroll.toNat ≤ ramSize := placed ▸ debugger.scroll.isLt.le
  rw [memoryWindow, difference, if_pos inside, ok_bind, dump_eq (by decide), Debugger.memoryWindow,
    placed]

end Checked

/-! ## What it shows -/

namespace Debugger

/-- The window shows the cells of RAM from `start` on, and nothing else. -/
structure ShowsCellsFrom (debugger : Debugger) (start : Nat) : Prop where
  length_window : ∀ rows, (debugger.memoryWindow rows).length = min rows (ramSize - start)
  cell : ∀ rows offset, offset < rows → ∀ inside : start + offset < ramSize,
    (debugger.memoryWindow rows)[offset]? =
      some (start + offset, debugger.machine.memory.ram.read ⟨_, inside⟩)

theorem showsCellsFrom_scroll (debugger : Debugger) :
    debugger.ShowsCellsFrom debugger.scroll where
  length_window rows := by
    rw [memoryWindow, Ram.length_dump, Nat.min_assoc, Nat.min_self]
  cell rows offset wanted inside := by
    have room : offset < min rows (ramSize - debugger.scroll) := by
      omega
    exact Ram.getElem?_dump _ _ _ room inside

/-- Whatever a user does with a new debugger, the window on RAM starts at a cell that exists:
its place as a bare number never passes that of the last cell, so that the cells from there on
can be counted, and they are what the window shows.  A dump of any block is the list of the
cells in its range, in order; no sum of 64 bits on the way overflows, and no cell outside the
block is looked at. -/
theorem memory_window_stays_in_ram :
    (∀ (program : List Word) (config : Config) (actions : List Action),
      let debugger := (ofProgram program config).afterActions actions
      let scroll := actions.foldl Checked.placeAfter 0
      (debugger.scroll : Nat) = scroll.toNat ∧ scroll.toNat ≤ 16383 ∧
        debugger.ShowsCellsFrom scroll.toNat ∧
        ∀ rows, Checked.memoryWindow debugger.machine scroll rows =
          .ok (debugger.memoryWindow rows)) ∧
    ∀ (size start count : Size) (ram : Ram size.toNat),
      let entries := ram.dump start.toNat count.toNat
      Checked.dump ram start.toNat count.toNat = .ok entries ∧
        (∀ index value, (index, value) ∈ entries ↔
          start.toNat ≤ index ∧ index < start.toNat + count.toNat ∧
            ∃ inside : index < size.toNat, value = ram.read ⟨index, inside⟩) ∧
        entries.Pairwise fun first second => first.1 < second.1 := by
  refine ⟨fun program config actions => ?_, fun size start count ram => ?_⟩
  · intro debugger scroll
    have started : ((ofProgram program config).scroll : Nat) = (0 : Size).toNat := rfl
    have placed : (debugger.scroll : Nat) = scroll.toNat :=
      Checked.toNat_foldl_placeAfter started actions
    refine ⟨placed, ?_, ?_, Checked.memoryWindow_eq placed⟩
    · rw [← placed]
      exact Nat.le_of_lt_succ debugger.scroll.isLt
    · rw [← placed]
      exact debugger.showsCellsFrom_scroll
  · exact ⟨Checked.dump_eq size.isLt ram _ _, fun index value => ram.mem_dump_iff,
      ram.pairwise_dump⟩

end Debugger

end HackComputer
