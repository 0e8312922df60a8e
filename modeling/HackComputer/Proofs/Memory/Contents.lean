import HackComputer.Memory

/-!
# The contents of data memory

`Memory.word` is the word at every data address, whatever the policy for
unmapped addresses: zero where there is no storage.  Which accesses the policy
refuses is said apart, by `Memory.Traps`.  A cycle's `read` and `write` are then
a test of `Traps` in front of `word` and `store`.
-/

namespace HackComputer

namespace Word

@[simp]
theorem low15_low15 (word : Word) : word.low15.low15 = word.low15 := by
  apply BitVec.eq_of_toNat_eq
  simp only [toNat_low15]
  omega

theorem low15_eq_self_iff {word : Word} : word.low15 = word ↔ word.toNat < 0x8000 := by
  constructor
  · intro fixed
    rw [← fixed]
    exact toNat_low15_lt word
  · intro small
    apply BitVec.eq_of_toNat_eq
    rw [toNat_low15]
    omega

/-- Counting on wraps after fifteen bits. -/
theorem toNat_low15_succ (word : Word) : (low15 (word + 1)).toNat = (word.toNat + 1) % 0x8000 := by
  have one : BitVec.toNat (1 : Word) = 1 := rfl
  rw [toNat_low15, BitVec.toNat_add, one]
  omega

end Word

namespace Location

@[simp]
theorem decode_low15 (address : Word) : decode address.low15 = decode address :=
  decode_inj.2 (Word.low15_low15 address)

theorem below_of_decode_ram {address : Word} {index : Fin ramSize}
    (found : decode address = .ram index) : address.low15.toNat < keyboardAddress := by
  have := ramSize_add_screenSize
  have := index.isLt
  rw [decode_eq_ram_iff.1 found]
  omega

theorem below_of_decode_screen {address : Word} {offset : Fin screenSize}
    (found : decode address = .screen offset) : address.low15.toNat < keyboardAddress := by
  have := ramSize_add_screenSize
  have := offset.isLt
  rw [decode_eq_screen_iff.1 found]
  omega

theorem not_above_of_decode_ram {address : Word} {index : Fin ramSize}
    (found : decode address = .ram index) : ¬keyboardAddress < address.low15.toNat :=
  Nat.lt_asymm (below_of_decode_ram found)

theorem not_above_of_decode_screen {address : Word} {offset : Fin screenSize}
    (found : decode address = .screen offset) : ¬keyboardAddress < address.low15.toNat :=
  Nat.lt_asymm (below_of_decode_screen found)

end Location

namespace Memory

variable (memory : Memory) (address : Word)

/-- The word at a data address, zero where there is no storage. -/
def word : Word :=
  match Location.decode address with
  | .ram index => memory.ram.read index
  | .screen offset => memory.screen.read offset
  | .keyboard => memory.keyboard
  | .unmapped _ => 0

/-- Is a cycle that touches the address refused? -/
def Traps : Prop :=
  memory.unmapped = .fault ∧ keyboardAddress < address.low15.toNat

instance : Decidable (memory.Traps address) :=
  inferInstanceAs (Decidable (_ ∧ _))

@[simp]
theorem word_low15 : memory.word address.low15 = memory.word address := by
  simp only [word, Location.decode_low15]

theorem store_low15 (value : Word) :
    memory.store address.low15 value = memory.store address value := by
  simp only [store, Location.decode_low15]

variable {address} in
/-- Where there is storage, nothing is refused. -/
theorem not_traps_of_below (below : address.toNat < keyboardAddress) : ¬memory.Traps address := by
  rintro ⟨-, above⟩
  rw [Word.low15_eq_self_iff.2 (Nat.lt_trans below (by decide))] at above
  exact Nat.lt_asymm below above

/-- Memory that ignores unmapped accesses refuses nothing. -/
theorem not_traps_of_ignore (ignores : memory.unmapped = .ignore) : ¬memory.Traps address := by
  simp [Traps, ignores]

theorem read_eq :
    memory.read address =
      if memory.Traps address then .error (.unmappedAccess address.low15)
      else .ok (memory.word address) := by
  simp only [read, word, Traps]
  cases found : Location.decode address with
  | ram index => simp [Location.not_above_of_decode_ram found]
  | screen offset => simp [Location.not_above_of_decode_screen found]
  | keyboard => simp [Location.decode_eq_keyboard_iff.1 found]
  | unmapped low =>
      obtain ⟨above, rfl⟩ := Location.decode_eq_unmapped_iff.1 found
      rcases memory with ⟨ram, screen, keyboard, policy⟩
      cases policy <;> simp [above]

/-- A read by the range of its address. -/
theorem read_eq_by_range :
    memory.read address =
      if address.low15.toNat < keyboardAddress then .ok (memory.word address)
      else if address.low15.toNat = keyboardAddress then .ok memory.keyboard
      else
        match memory.unmapped with
        | .ignore => .ok 0
        | .fault => .error (.unmappedAccess address.low15) := by
  simp only [read, word]
  cases found : Location.decode address with
  | ram index => rw [if_pos (Location.below_of_decode_ram found)]
  | screen offset => rw [if_pos (Location.below_of_decode_screen found)]
  | keyboard => simp [Location.decode_eq_keyboard_iff.1 found]
  | unmapped low =>
      obtain ⟨above, rfl⟩ := Location.decode_eq_unmapped_iff.1 found
      symm
      rw [if_neg (Nat.lt_asymm above)]
      exact if_neg (Nat.ne_of_gt above)

theorem write_eq (value : Word) (load : Bool) :
    memory.write address value load =
      if load = true ∧ memory.Traps address then
        (.error (.unmappedAccess address.low15), memory)
      else (.ok (), if load then memory.store address value else memory) := by
  cases load with
  | false => simp [write]
  | true =>
      simp only [write, if_true, Traps, true_and]
      cases found : Location.decode address with
      | ram index => simp [Location.not_above_of_decode_ram found]
      | screen offset => simp [Location.not_above_of_decode_screen found]
      | keyboard => simp [Location.decode_eq_keyboard_iff.1 found]
      | unmapped low =>
          obtain ⟨above, rfl⟩ := Location.decode_eq_unmapped_iff.1 found
          cases policy : memory.unmapped <;> simp [above]

@[simp]
theorem unmapped_store (value : Word) :
    (memory.store address value).unmapped = memory.unmapped := by
  simp only [store]
  split <;> rfl

@[simp]
theorem keyboard_store (value : Word) :
    (memory.store address value).keyboard = memory.keyboard := by
  simp only [store]
  split <;> rfl

/-- Storing does not depend on the policy for unmapped addresses. -/
private theorem store_withPolicy (value : Word) (policy : UnmappedPolicy) :
    ({ memory with unmapped := policy } : Memory).store address value =
      { memory.store address value with unmapped := policy } := by
  simp only [store]
  split <;> rfl

/-- A stored word is found at every address that agrees in fifteen bits, if
there is storage below the keyboard; all other words stay. -/
theorem word_store (stored value : Word) :
    (memory.store stored value).word address =
      if stored.low15 = address.low15 ∧ stored.low15.toNat < keyboardAddress then value
      else memory.word address := by
  -- `read_store` speaks of `read`, which gives `word` once nothing is refused.
  have stored_read := read_store { memory with unmapped := .ignore } stored address value
  rw [store_withPolicy, read_eq, read_eq, if_neg (not_traps_of_ignore _ _ rfl),
    if_neg (not_traps_of_ignore _ _ rfl), ← apply_ite Except.ok] at stored_read
  exact Except.ok.inj stored_read

/-- The keyboard is at one address. -/
theorem word_setKeyboard (key : Word) :
    (memory.setKeyboard key).word address =
      if address.low15.toNat = keyboardAddress then key else memory.word address := by
  simp only [← Location.decode_eq_keyboard_iff, word, setKeyboard]
  cases found : Location.decode address <;> simp

/-! ## Direct access -/

section Direct

variable {address}

/-- Below the keyboard there is storage, which is where a cycle finds it. -/
theorem direct_of_below (below : address.toNat < keyboardAddress) :
    (∃ index, Location.decode address = .ram index ∧ direct address = .ok (.ram index)) ∨
      ∃ offset, Location.decode address = .screen offset ∧
        direct address = .ok (.screen offset) := by
  have short : address.toNat < 0x8000 := Nat.lt_trans below (by decide)
  have low_eq : address.low15 = address := Word.low15_eq_self_iff.2 short
  rw [direct, if_pos short]
  cases found : Location.decode address with
  | ram index => exact .inl ⟨index, rfl, rfl⟩
  | screen offset => exact .inr ⟨offset, rfl, rfl⟩
  | keyboard =>
      have at_keyboard := Location.decode_eq_keyboard_iff.1 found
      rw [low_eq] at at_keyboard
      exact absurd at_keyboard (Nat.ne_of_lt below)
  | unmapped low =>
      have above := (Location.decode_eq_unmapped_iff.1 found).1
      rw [low_eq] at above
      exact absurd above (Nat.lt_asymm below)

/-- From the keyboard on there is no storage. -/
theorem direct_of_not_below (not_below : ¬address.toNat < keyboardAddress) :
    direct address = .error (.addressOutOfRange address) ∨ direct address = .ok .keyboard ∨
      ∃ low, direct address = .ok (.unmapped low) := by
  rw [direct]
  by_cases short : address.toNat < 0x8000
  · have low_eq : address.low15 = address := Word.low15_eq_self_iff.2 short
    rw [if_pos short]
    cases found : Location.decode address with
    | ram index =>
        have below := Location.below_of_decode_ram found
        rw [low_eq] at below
        exact absurd below not_below
    | screen offset =>
        have below := Location.below_of_decode_screen found
        rw [low_eq] at below
        exact absurd below not_below
    | keyboard => exact .inr (.inl rfl)
    | unmapped low => exact .inr (.inr ⟨low, rfl⟩)
  · exact .inl (if_neg short)

variable (address)

/-- Outside the clock, RAM and the screen are read as a cycle reads them, and
nothing else is. -/
theorem peek_eq :
    memory.peek address =
      if address.toNat < keyboardAddress then memory.read address
      else .error (.addressOutOfRange address) := by
  rw [peek]
  by_cases below : address.toNat < keyboardAddress
  · rw [if_pos below]
    rcases direct_of_below below with ⟨index, found, direct_eq⟩ | ⟨offset, found, direct_eq⟩
    · rw [direct_eq, read, found]
    · rw [direct_eq, read, found]
  · rw [if_neg below]
    rcases direct_of_not_below below with direct_eq | direct_eq | ⟨low, direct_eq⟩
    all_goals rw [direct_eq]

/-- What is read outside the clock does not depend on the policy for unmapped addresses. -/
theorem peek_eq_word :
    memory.peek address =
      if address.toNat < keyboardAddress then .ok (memory.word address)
      else .error (.addressOutOfRange address) := by
  rw [peek_eq]
  by_cases below : address.toNat < keyboardAddress
  · have short : address.low15 = address :=
      Word.low15_eq_self_iff.2 (Nat.lt_trans below (by decide))
    rw [if_pos below, if_pos below, read_eq_by_range, short, if_pos below]
  · rw [if_neg below, if_neg below]

/-- Outside the clock, RAM and the screen are written as a cycle writes them, and
nothing else is. -/
theorem poke_eq (value : Word) :
    memory.poke address value =
      if address.toNat < keyboardAddress then (.ok (), memory.store address value)
      else (.error (.addressOutOfRange address), memory) := by
  rw [poke]
  by_cases below : address.toNat < keyboardAddress
  · rw [if_pos below]
    rcases direct_of_below below with ⟨index, found, direct_eq⟩ | ⟨offset, found, direct_eq⟩
    · rw [direct_eq, store, found]
    · rw [direct_eq, store, found]
  · rw [if_neg below]
    rcases direct_of_not_below below with direct_eq | direct_eq | ⟨low, direct_eq⟩
    all_goals rw [direct_eq]

end Direct

end Memory

end HackComputer
