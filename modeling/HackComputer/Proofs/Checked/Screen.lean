import HackComputer.Proofs.Checked.Access
import HackComputer.Proofs.Memory.Block

/-!
# Checked rendering

The picture of a screen, drawn on checked access: the sizes and the ends of the blocks
are computed in 64 bits, and every pixel is looked up by its column and row.  No check
fails, whatever size of picture is asked for.
-/

namespace HackComputer

open Screen (width height)

namespace Checked

/-! ## Numbers -/

/-- The product of two numbers of 64 bits. -/
def product (x y : Nat) : Checked Nat :=
  if x * y < 2 ^ 64 then .ok (x * y) else .error .overflow

/-- A quotient, rounded up. -/
def quotientUp (x y : Nat) : Checked Nat :=
  if 0 < y then
    if 0 < x % y then sum (x / y) 1 else .ok (x / y)
  else .error .overflow

theorem product_eq {x y limit : Nat} (bound : x * y ≤ limit) (small : limit < 2 ^ 64) :
    product x y = .ok (x * y) :=
  if_pos (Nat.lt_of_le_of_lt bound small)

theorem quotientUp_eq {x y : Nat} (positive : 0 < y) (small : x < 2 ^ 63) :
    quotientUp x y = .ok (Screen.blockSize x y) := by
  have counted : x / y + 1 < 2 ^ 64 := by
    have := Nat.div_le_self x y
    omega
  have split := Nat.div_add_mod x y
  have remainder := Nat.mod_lt x positive
  rw [quotientUp, if_pos positive, Screen.blockSize]
  by_cases exact : 0 < x % y
  · have rounded : (x + y - 1) / y = x / y + 1 := by
      rw [Nat.div_eq_iff positive, Nat.add_mul, Nat.mul_comm]
      omega
    rw [if_pos exact, sum, if_pos counted, rounded]
  · have whole : (x + y - 1) / y = x / y := by
      rw [Nat.div_eq_iff positive, Nat.mul_comm]
      omega
    rw [if_neg exact, whole]

/-! ## Lists -/

section Lists

variable {Item Result : Type} {items : List Item}

/-- If no item fails its checks, the list does not. -/
theorem mapM_eq {item : Item → Checked Result} {result : Item → Result}
    (item_eq : ∀ each ∈ items, item each = .ok (result each)) :
    items.mapM item = .ok (items.map result) := by
  induction items with
  | nil => rfl
  | cons first rest inductionHypothesis =>
      rw [List.mapM_cons, item_eq first List.mem_cons_self, ok_bind,
        inductionHypothesis fun each member => item_eq each (List.mem_cons_of_mem _ member)]
      rfl

/-- If no item fails its checks, neither does the search for one. -/
theorem anyM_eq {test : Item → Checked Bool} {holds : Item → Bool}
    (test_eq : ∀ each ∈ items, test each = .ok (holds each)) :
    items.anyM test = .ok (items.any holds) := by
  induction items with
  | nil => rfl
  | cons first rest inductionHypothesis =>
      rw [List.anyM, test_eq first List.mem_cons_self, ok_bind, List.any_cons]
      cases holds first with
      | true => rfl
      | false =>
          exact inductionHypothesis fun each member => test_eq each (List.mem_cons_of_mem _ member)

end Lists

/-! ## Pixels -/

/-- The pixel in column `x` and row `y`. -/
def pixel (screen : Screen) (x y : Nat) : Checked Bool :=
  if x < width ∧ y < height then do
    let offset ← sum (← product y 32) (x / 16)
    bit (← cell screen.words offset) (x % 16)
  else .error (.outOfRange (.pixel x y))

/-- The `index`-th interval of `length` numbers, cut off at `limit`. -/
def block (length limit index : Nat) : Checked (List Nat) := do
  let first ← product index length
  let last ← product (← sum index 1) length
  return .range' first (min last limit - first)

/-- The character for a block of pixels. -/
def character (screen : Screen) (blockWidth blockHeight col row : Nat) : Checked Char := do
  let ys ← block blockHeight height row
  let xs ← block blockWidth width col
  let lit ← ys.anyM fun y => xs.anyM fun x => pixel screen x y
  return if lit then '#' else '.'

/-- The screen as `rows` lines of `cols` characters. -/
def render (screen : Screen) (cols rows : Nat) : Checked (List String) := do
  let cols := max 1 (min cols width)
  let rows := max 1 (min rows height)
  let blockWidth ← quotientUp width cols
  let blockHeight ← quotientUp height rows
  (List.range rows).mapM fun row => do
    return .ofList (← (List.range cols).mapM fun col =>
      character screen blockWidth blockHeight col row)

variable (screen : Screen)

/-- Only the place of a pixel is in question. -/
theorem pixel_eq (x y : Nat) : pixel screen x y = (screen.pixel? x y).mapError .outOfRange := by
  rw [pixel, Screen.pixel?]
  split
  · rename_i inside
    obtain ⟨x_lt, y_lt⟩ : x < 512 ∧ y < 256 := inside
    have offset_lt : 32 * y + x / 16 < screenSize := by
      change _ < 0x2000
      omega
    have row_eq : product y 32 = .ok (32 * y) := by
      rw [product_eq (Nat.mul_le_mul_right 32 (Nat.le_of_lt y_lt)) (by decide), Nat.mul_comm]
    have offset_eq : sum (32 * y) (x / 16) = .ok (32 * y + x / 16) :=
      if_pos (Nat.lt_trans offset_lt (by decide))
    rw [row_eq, ok_bind, offset_eq, ok_bind, cell_eq screen.words ⟨_, offset_lt⟩, ok_bind, bit_eq,
      Word.bit?, if_pos (Nat.mod_lt x (by decide))]
    rfl
  · rfl

theorem block_eq {length limit index : Nat} (small : length ≤ 2 ^ 16) (few : index ≤ 2 ^ 16) :
    block length limit index = .ok (Screen.block length limit index) := by
  have first_eq : product index length = .ok (index * length) :=
    product_eq (Nat.mul_le_mul few small) (by decide)
  have next_eq : sum index 1 = .ok (index + 1) :=
    if_pos (Nat.lt_of_le_of_lt (Nat.succ_le_succ few) (by decide))
  have last_eq : product (index + 1) length = .ok ((index + 1) * length) :=
    product_eq (Nat.mul_le_mul (Nat.succ_le_succ few) small) (by decide)
  rw [block, first_eq, ok_bind, next_eq, ok_bind, last_eq]
  rfl

theorem character_eq {blockWidth blockHeight col row : Nat} (narrow : blockWidth ≤ 2 ^ 16)
    (low : blockHeight ≤ 2 ^ 16) (col_le : col ≤ 2 ^ 16) (row_le : row ≤ 2 ^ 16) :
    character screen blockWidth blockHeight col row =
      .ok (if (Screen.block blockHeight height row).any fun y =>
          (Screen.block blockWidth width col).any fun x => screen.isBlack x y
        then '#' else '.') := by
  have pixels_eq : (Screen.block blockHeight height row).anyM (fun y =>
      (Screen.block blockWidth width col).anyM fun x => pixel screen x y) =
        .ok ((Screen.block blockHeight height row).any fun y =>
          (Screen.block blockWidth width col).any fun x => screen.isBlack x y) := by
    refine anyM_eq fun y y_mem => anyM_eq fun x x_mem => ?_
    have inside : x < width ∧ y < height :=
      ⟨(Screen.mem_block_iff.1 x_mem).2.2, (Screen.mem_block_iff.1 y_mem).2.2⟩
    rw [pixel_eq, Screen.pixel?, dif_pos inside, Screen.isBlack, dif_pos inside]
    rfl
  rw [character, block_eq low row_le, ok_bind, block_eq narrow col_le, ok_bind, pixels_eq]
  rfl

/-- A picture of any size is drawn without a failed check. -/
theorem render_eq (cols rows : Nat) :
    render screen cols rows = .ok (screen.render cols rows) := by
  have cols_pos : 0 < max 1 (min cols width) := by omega
  have rows_pos : 0 < max 1 (min rows height) := by omega
  have narrow : Screen.blockSize width (max 1 (min cols width)) ≤ 2 ^ 16 :=
    Nat.le_trans (Screen.blockSize_le_total cols_pos) (by decide)
  have low : Screen.blockSize height (max 1 (min rows height)) ≤ 2 ^ 16 :=
    Nat.le_trans (Screen.blockSize_le_total rows_pos) (by decide)
  have cols_le : max 1 (min cols width) ≤ 2 ^ 16 := by
    simp only [width]
    omega
  have rows_le : max 1 (min rows height) ≤ 2 ^ 16 := by
    simp only [height]
    omega
  rw [render, quotientUp_eq cols_pos (by decide), ok_bind, quotientUp_eq rows_pos (by decide),
    ok_bind]
  refine mapM_eq fun row row_mem => ?_
  have row_le : row ≤ 2 ^ 16 := Nat.le_trans (Nat.le_of_lt (List.mem_range.1 row_mem)) rows_le
  rw [mapM_eq fun col col_mem => character_eq screen narrow low
    (Nat.le_trans (Nat.le_of_lt (List.mem_range.1 col_mem)) cols_le) row_le]
  rfl

end Checked

end HackComputer
