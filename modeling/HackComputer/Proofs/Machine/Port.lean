import HackComputer.Machine
import HackComputer.Proofs.Memory.Contents
import Mathlib.Data.List.Induction

/-!
# One store behind all ports

Data memory is written by the clock edge, through fifteen bits of address, and
by pokes, through all sixteen; keys come in by a port of their own.  Whatever
the order in which the ports are used, a read finds what was last stored at its
address by any of them.
-/

namespace HackComputer

/-- A use of a port through which data memory may change. -/
inductive PortUse where
  /-- A clock edge: store `value` if `load` is asserted. -/
  | write (address value : Word) (load : Bool)
  | setKeyboard (key : Word)
  | poke (address value : Word)
  deriving DecidableEq, Repr

namespace PortUse

/-- The word that a use brings to an address.  A write with `load` brings it to
all addresses that agree in fifteen bits; a poke is only accepted below the
keyboard. -/
def stored? (address : Word) : PortUse → Option Word
  | .write target value load =>
    if load = true ∧ target.low15 = address.low15 then some value else none
  | .setKeyboard _ => none
  | .poke target value =>
    if target.toNat < keyboardAddress ∧ target.low15 = address.low15 then some value else none

/-- The key that a use sets. -/
def key? : PortUse → Option Word
  | .setKeyboard key => some key
  | .write .. | .poke .. => none

/-- The word that a list of uses brought to an address last. -/
def lastStored? (address : Word) (uses : List PortUse) : Option Word :=
  uses.reverse.findSome? (stored? address)

/-- The key that a list of uses set last. -/
def lastKey? (uses : List PortUse) : Option Word :=
  uses.reverse.findSome? key?

section Last

variable {address : Word} {uses : List PortUse} {use : PortUse}

theorem lastStored?_append :
    lastStored? address (uses ++ [use]) = (use.stored? address).or (lastStored? address uses) := by
  rw [lastStored?, List.reverse_append, List.reverse_singleton, List.singleton_append,
    List.findSome?_cons]
  cases use.stored? address <;> rfl

theorem lastKey?_append : lastKey? (uses ++ [use]) = use.key?.or (lastKey? uses) := by
  rw [lastKey?, List.reverse_append, List.reverse_singleton, List.singleton_append,
    List.findSome?_cons]
  cases use.key? <;> rfl

end Last

end PortUse

namespace Machine

/-- Whether a use of a port is refused, and the machine after it. -/
def serve (machine : Machine) : PortUse → Except MemoryError Unit × Machine
  | .write address value load =>
    ((machine.memory.write address value load).1,
      { machine with memory := (machine.memory.write address value load).2 })
  | .setKeyboard key => (.ok (), machine.setKeyboard key)
  | .poke address value => machine.poke address value

/-- The machine after a list of uses.  A use that is refused does not end the
list. -/
def afterUses (machine : Machine) (uses : List PortUse) : Machine :=
  uses.foldl (fun machine use => (machine.serve use).2) machine

variable {machine : Machine}

theorem afterUses_append (uses : List PortUse) (use : PortUse) :
    machine.afterUses (uses ++ [use]) = ((machine.afterUses uses).serve use).2 := by
  simp [afterUses]

theorem memory_poke (address value : Word) :
    (machine.poke address value).2.memory =
      if address.toNat < keyboardAddress then machine.memory.store address value
      else machine.memory := by
  simp only [poke, Memory.poke_eq]
  split <;> rfl

/-! ## What one use does -/

/-- Below the keyboard, a use changes exactly the words that it brings. -/
theorem word_serve {address : Word} (below : address.low15.toNat < keyboardAddress)
    (use : PortUse) :
    (machine.serve use).2.memory.word address =
      (use.stored? address).getD (machine.memory.word address) := by
  cases use with
  | write target value load =>
      simp only [serve, Memory.write_eq, PortUse.stored?]
      cases load with
      | false => simp
      | true =>
          by_cases same : target.low15 = address.low15
          · have accepted : ¬machine.memory.Traps target := by
              rintro ⟨-, above⟩
              rw [same] at above
              exact Nat.lt_asymm above below
            simp [accepted, same, below, Memory.word_store]
          · by_cases traps : machine.memory.Traps target
            · simp [traps, same]
            · simp [traps, same, Memory.word_store]
  | setKeyboard key =>
      have stored := machine.memory.word_setKeyboard address key
      rw [if_neg (Nat.ne_of_lt below)] at stored
      exact stored
  | poke target value =>
      simp only [serve, memory_poke, PortUse.stored?]
      by_cases accepted : target.toNat < keyboardAddress
      · have low_eq : target.low15 = target :=
          Word.low15_eq_self_iff.2 (Nat.lt_trans accepted (by decide))
        simp only [accepted, if_true, true_and, Memory.word_store, low_eq, and_true]
        split <;> rfl
      · simp [accepted]

/-- A use leaves data memory as it is, stores one word or sets the key. -/
theorem memory_serve (machine : Machine) (use : PortUse) :
    (machine.serve use).2.memory = machine.memory ∧ use.key? = none ∨
      (∃ address value, (machine.serve use).2.memory = machine.memory.store address value ∧
        use.key? = none) ∨
      ∃ key, use = .setKeyboard key := by
  cases use with
  | write address value load =>
      simp only [serve, Memory.write_eq]
      split
      · exact .inl ⟨rfl, rfl⟩
      · cases load with
        | false => exact .inl ⟨rfl, rfl⟩
        | true => exact .inr (.inl ⟨address, value, rfl, rfl⟩)
  | setKeyboard key => exact .inr (.inr ⟨key, rfl⟩)
  | poke address value =>
      rw [serve, memory_poke]
      split
      · exact .inr (.inl ⟨address, value, rfl, rfl⟩)
      · exact .inl ⟨rfl, rfl⟩

/-- Only the keyboard's own port changes the key. -/
theorem keyboard_serve (use : PortUse) :
    (machine.serve use).2.memory.keyboard = use.key?.getD machine.memory.keyboard := by
  rcases machine.memory_serve use with
    ⟨kept, no_key⟩ | ⟨address, value, stored, no_key⟩ | ⟨key, rfl⟩
  · rw [kept, no_key, Option.getD_none]
  · rw [stored, no_key, Memory.keyboard_store, Option.getD_none]
  · rfl

/-- No port changes the policy for unmapped addresses. -/
theorem unmapped_serve (use : PortUse) :
    (machine.serve use).2.memory.unmapped = machine.memory.unmapped := by
  rcases machine.memory_serve use with ⟨kept, -⟩ | ⟨address, value, stored, -⟩ | ⟨key, rfl⟩
  · rw [kept]
  · rw [stored, Memory.unmapped_store]
  · rfl

/-! ## What a list of uses does -/

theorem word_afterUses {address : Word} (below : address.low15.toNat < keyboardAddress)
    (uses : List PortUse) :
    (machine.afterUses uses).memory.word address =
      (PortUse.lastStored? address uses).getD (machine.memory.word address) := by
  induction uses using List.reverseRecOn with
  | nil => rfl
  | append_singleton uses use inductionHypothesis =>
      rw [afterUses_append, word_serve below, inductionHypothesis, PortUse.lastStored?_append]
      cases use.stored? address <;> rfl

theorem keyboard_afterUses (uses : List PortUse) :
    (machine.afterUses uses).memory.keyboard =
      (PortUse.lastKey? uses).getD machine.memory.keyboard := by
  induction uses using List.reverseRecOn with
  | nil => rfl
  | append_singleton uses use inductionHypothesis =>
      rw [afterUses_append, keyboard_serve, inductionHypothesis, PortUse.lastKey?_append]
      cases use.key? <;> rfl

theorem unmapped_afterUses (uses : List PortUse) :
    (machine.afterUses uses).memory.unmapped = machine.memory.unmapped := by
  induction uses using List.reverseRecOn with
  | nil => rfl
  | append_singleton uses use inductionHypothesis =>
      rw [afterUses_append, unmapped_serve, inductionHypothesis]

/-- After any uses of the ports of data memory, a read finds below the keyboard
what was last stored at an address that agrees in fifteen bits, at the keyboard
the key that was last set, and above it what the policy says.  Peeks and pokes
are reads and writes there whose address is taken as it is: they are refused,
without effect, from the keyboard on.  A refused write has no effect either. -/
theorem ports_share_one_store (machine : Machine) (uses : List PortUse) :
    let after := machine.afterUses uses
    (∀ address, after.memory.read address =
      if address.low15.toNat < keyboardAddress then
        .ok ((PortUse.lastStored? address uses).getD (machine.memory.word address))
      else if address.low15.toNat = keyboardAddress then
        .ok ((PortUse.lastKey? uses).getD machine.memory.keyboard)
      else
        match machine.memory.unmapped with
        | .ignore => .ok 0
        | .fault => .error (.unmappedAccess address.low15)) ∧
    (∀ address, address.toNat < keyboardAddress →
      after.peek address = after.memory.read address ∧
        ∀ value, after.serve (.poke address value) = after.serve (.write address value true)) ∧
    (∀ address, keyboardAddress ≤ address.toNat →
      after.peek address = .error (.addressOutOfRange address) ∧
        ∀ value, after.serve (.poke address value) = (.error (.addressOutOfRange address), after)) ∧
    ∀ address value load error last,
      after.serve (.write address value load) = (.error error, last) → last = after := by
  intro after
  refine ⟨?_, ?_, ?_, ?_⟩
  · intro address
    rw [Memory.read_eq_by_range, keyboard_afterUses, unmapped_afterUses]
    by_cases below : address.low15.toNat < keyboardAddress
    · rw [if_pos below, if_pos below, word_afterUses below]
    · rw [if_neg below]
      exact (if_neg below).symm
  · intro address below
    constructor
    · rw [peek, Memory.peek_eq, if_pos below]
    · intro value
      have accepted : ¬after.memory.Traps address := by
        rintro ⟨-, above⟩
        rw [Word.low15_eq_self_iff.2 (Nat.lt_trans below (by decide))] at above
        exact Nat.lt_asymm above below
      simp only [serve, poke, Memory.poke_eq, Memory.write_eq, below, accepted, and_false, if_true,
        if_false]
  · intro address not_below
    have outside : ¬address.toNat < keyboardAddress := Nat.not_lt_of_ge not_below
    constructor
    · rw [peek, Memory.peek_eq, if_neg outside]
    · intro value
      simp only [serve, poke, Memory.poke_eq, if_neg outside]
  · intro address value load error last refused
    simp only [serve, Memory.write_eq] at refused
    split at refused
    · exact (Prod.mk.inj refused).2.symm
    · cases refused

end Machine

end HackComputer
