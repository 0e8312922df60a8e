import HackComputer.Proofs.Memory.Contents

/-!
# Pixels and words

A pixel is one bit of one screen word.  Every bit of every word is the bit of one
pixel, so the pixels of a screen determine its words.  A word stored at a data
address shows in the sixteen pixels of that address and in no other.
-/

namespace HackComputer

namespace Screen

section Offsets

variable (x : Fin width) (y : Fin height)

theorem offset_lt_screenSize : 32 * y.val + x.val / 16 < screenSize := by
  have x_lt : x.val < 512 := x.isLt
  have y_lt : y.val < 256 := y.isLt
  rw [screenSize]
  omega

/-- The offset of the word that holds a pixel. -/
def wordOffset : Fin screenSize :=
  ⟨32 * y.val + x.val / 16, offset_lt_screenSize x y⟩

/-- The data address of the word that holds a pixel. -/
def wordAddress : Word :=
  .ofNat 16 (0x4000 + (32 * y.val + x.val / 16))

theorem toNat_wordAddress : (wordAddress x y).toNat = 0x4000 + (32 * y.val + x.val / 16) := by
  have inside : 32 * y.val + x.val / 16 < 0x2000 := (wordOffset x y).isLt
  rw [wordAddress, BitVec.toNat_ofNat]
  omega

theorem decode_wordAddress :
    Location.decode (wordAddress x y) = .screen (wordOffset x y) := by
  have inside : 32 * y.val + x.val / 16 < 0x2000 := (wordOffset x y).isLt
  have toNat_eq := toNat_wordAddress x y
  rw [Location.decode_eq_screen_iff, Word.low15_eq_self_iff.2 (by omega), toNat_eq]
  rfl

/-- Pixels lie below the keyboard. -/
theorem toNat_wordAddress_lt : (wordAddress x y).toNat < keyboardAddress := by
  have inside : 32 * y.val + x.val / 16 < 0x2000 := (wordOffset x y).isLt
  rw [toNat_wordAddress, keyboardAddress]
  omega

/-- A cycle reads the word of a pixel at its data address. -/
theorem read_wordAddress (memory : Memory) :
    memory.read (wordAddress x y) = .ok (memory.screen.read (wordOffset x y)) := by
  rw [Memory.read, decode_wordAddress]

end Offsets

/-- Every bit of every word is the bit of a pixel. -/
theorem exists_pixel (offset : Fin screenSize) {bit : Nat} (inside : bit < 16) :
    ∃ x y, wordOffset x y = offset ∧ x.val % 16 = bit := by
  have bound : offset.val < 0x2000 := offset.isLt
  refine ⟨⟨16 * (offset.val % 32) + bit, ?_⟩, ⟨offset.val / 32, ?_⟩, ?_, ?_⟩
  · simp only [width]
    omega
  · simp only [height]
    omega
  · apply Fin.ext
    change 32 * (offset.val / 32) + (16 * (offset.val % 32) + bit) / 16 = offset.val
    omega
  · change (16 * (offset.val % 32) + bit) % 16 = bit
    omega

variable (screen : Screen) (x : Fin width) (y : Fin height)

theorem pixel_eq : screen.pixel x y = (screen.read (wordOffset x y)).getLsbD (x.val % 16) :=
  rfl

theorem pixel_write (offset : Fin screenSize) (value : Word) :
    (screen.write offset value).pixel x y =
      if offset = wordOffset x y then value.getLsbD (x.val % 16) else screen.pixel x y := by
  rw [pixel_eq, pixel_eq, read, write, Ram.read_write, apply_ite (BitVec.getLsbD · _)]
  rfl

variable {screen}

/-- The pixels determine the words. -/
theorem read_eq_of_pixel_eq {other : Screen} (same : ∀ x y, screen.pixel x y = other.pixel x y)
    (offset : Fin screenSize) : screen.read offset = other.read offset := by
  apply BitVec.eq_of_getLsbD_eq
  intro bit inside
  obtain ⟨x, y, rfl, rfl⟩ := exists_pixel offset inside
  exact same x y

/-- Screens with the same pixels are equal. -/
theorem eq_of_pixel_eq {other : Screen} (same : ∀ x y, screen.pixel x y = other.pixel x y) :
    screen = other := by
  obtain ⟨⟨words⟩⟩ := screen
  obtain ⟨⟨others⟩⟩ := other
  have words_eq : words = others :=
    Vector.ext fun index inside => read_eq_of_pixel_eq same ⟨index, inside⟩
  rw [words_eq]

/-- A screen is white exactly if all its words are zero. -/
theorem forall_pixel_eq_false_iff : (∀ x y, screen.pixel x y = false) ↔ screen = .zero := by
  have white : ∀ x y, Screen.zero.pixel x y = false := by
    intro x y
    rw [pixel_eq, read, zero, Ram.read_zero]
    exact BitVec.getLsbD_zero
  constructor
  · intro none_black
    exact eq_of_pixel_eq fun x y => (none_black x y).trans (white x y).symm
  · rintro rfl
    exact white

end Screen

end HackComputer
