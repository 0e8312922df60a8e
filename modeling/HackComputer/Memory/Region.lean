import HackComputer.Word

/-!
# The data address space

Data addresses have fifteen bits and fall into disjoint ranges: RAM below
`0x4000`, the screen below `0x6000`, the keyboard at `0x6000`, and an unmapped
rest.  A `Location` says which range an address is in and where in it.  A
`Region` says the same in numbers of 64 bits, which the outside may choose
freely.
-/

namespace HackComputer

/-- The number of RAM cells. -/
def ramSize : Nat := 0x4000

/-- The number of screen words. -/
def screenSize : Nat := 0x2000

/-- The number of program memory cells. -/
def romSize : Nat := 0x8000

/-- The address of the keyboard, just above the screen. -/
def keyboardAddress : Nat := 0x6000

/-- The keyboard follows the screen, which follows RAM. -/
theorem ramSize_add_screenSize : ramSize + screenSize = keyboardAddress :=
  rfl

/-- What a data address stands for. -/
inductive Location where
  /-- A cell of RAM. -/
  | ram (index : Fin ramSize)
  /-- A word of the screen. -/
  | screen (offset : Fin screenSize)
  | keyboard
  /-- No storage, with the fifteen-bit address. -/
  | unmapped (address : Word)
  deriving DecidableEq, Repr

/-- What a data address stands for.  Bit 15 is ignored. -/
def Location.decode (address : Word) : Location :=
  let low := address.low15
  if inRam : low.toNat < ramSize then .ram ⟨low.toNat, inRam⟩
  else if inScreen : low.toNat - ramSize < screenSize then .screen ⟨low.toNat - ramSize, inScreen⟩
  else if low.toNat = keyboardAddress then .keyboard
  else .unmapped low

namespace Location

theorem decode_eq_ram_iff {address : Word} {index : Fin ramSize} :
    decode address = .ram index ↔ address.low15.toNat = index := by
  have := index.isLt
  simp only [decode]
  split
  · simp [Fin.ext_iff]
  · repeat' split
    all_goals simp
    all_goals omega

theorem decode_eq_screen_iff {address : Word} {offset : Fin screenSize} :
    decode address = .screen offset ↔ address.low15.toNat = ramSize + offset := by
  have := offset.isLt
  simp only [decode]
  split
  · simp
    omega
  · split
    · simp [Fin.ext_iff]
      omega
    · split <;> simp <;> omega

theorem decode_eq_keyboard_iff {address : Word} :
    decode address = .keyboard ↔ address.low15.toNat = keyboardAddress := by
  have := ramSize_add_screenSize
  simp only [decode]
  split
  · simp
    omega
  · split
    · simp
      omega
    · split <;> simp_all

theorem decode_eq_unmapped_iff {address low : Word} :
    decode address = .unmapped low ↔
      keyboardAddress < address.low15.toNat ∧ address.low15 = low := by
  have := ramSize_add_screenSize
  simp only [decode]
  split
  · simp
    omega
  · split
    · simp
      omega
    · split
      · simp
        omega
      · have above : keyboardAddress < address.low15.toNat := by omega
        simp [above]

/-- Addresses stand for the same if and only if they agree in fifteen bits. -/
theorem decode_inj {first second : Word} :
    decode first = decode second ↔ first.low15 = second.low15 := by
  refine ⟨fun same => ?_, fun same => by simp only [decode, same]⟩
  cases found : decode second with
  | ram index =>
    rw [found, decode_eq_ram_iff] at same
    exact BitVec.eq_of_toNat_eq (same.trans (decode_eq_ram_iff.1 found).symm)
  | screen offset =>
    rw [found, decode_eq_screen_iff] at same
    exact BitVec.eq_of_toNat_eq (same.trans (decode_eq_screen_iff.1 found).symm)
  | keyboard =>
    rw [found, decode_eq_keyboard_iff] at same
    exact BitVec.eq_of_toNat_eq (same.trans (decode_eq_keyboard_iff.1 found).symm)
  | unmapped low =>
    rw [found, decode_eq_unmapped_iff] at same
    exact same.2.trans (decode_eq_unmapped_iff.1 found).2.symm

end Location

/-- The range that an address falls into, as it is exchanged with the
outside. -/
inductive Region where
  /-- RAM, with the index of the cell. -/
  | ram (index : Size)
  /-- The screen, with the offset of the word. -/
  | screen (offset : Size)
  | keyboard
  /-- No storage, with the address. -/
  | unmapped (address : Word)
  deriving DecidableEq, Repr

/-- The range of a location. -/
def Location.region : Location → Region
  | .ram index => .ram (.ofNat 64 index)
  | .screen offset => .screen (.ofNat 64 offset)
  | .keyboard => .keyboard
  | .unmapped address => .unmapped address

/-- The range of a data address. -/
def Region.decode (address : Word) : Region :=
  (Location.decode address).region

end HackComputer
