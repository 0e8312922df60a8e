import HackComputer.Proofs.Checked.Screen
import HackComputer.Proofs.Memory.Pixel

/-!
# Pictures of the screen

A picture has one character for each block of pixels, black if one of its pixels is.
The blocks cover the screen and do not overlap, also where the size of the picture does
not divide the size of the screen, so that a picture loses no black pixel and invents
none.
-/

namespace HackComputer.Screen

/-- The character in a column and a line of a picture. -/
def charAt? (picture : List String) (col row : Nat) : Option Char :=
  picture[row]?.bind fun line => line.toList[col]?

/-- Is a pixel of the block of a character black? -/
def isLit (screen : Screen) (blockWidth blockHeight col row : Nat) : Bool :=
  (block blockHeight height row).any fun y =>
    (block blockWidth width col).any fun x => screen.isBlack x y

/-- The character for a block of pixels. -/
def character (lit : Bool) : Char :=
  if lit then '#' else '.'

theorem character_eq_or (lit : Bool) : character lit = '#' ∨ character lit = '.' := by
  cases lit with
  | true => exact .inl rfl
  | false => exact .inr rfl

theorem character_eq_dark_iff {lit : Bool} : character lit = '.' ↔ lit = false := by
  cases lit <;> decide

theorem character_eq_lit_iff {lit : Bool} : character lit = '#' ↔ lit = true := by
  cases lit <;> decide

variable (screen : Screen) (cols rows : Nat)

theorem render_eq_map :
    screen.render cols rows =
      (List.range (max 1 (min rows height))).map fun row =>
        String.ofList <| (List.range (max 1 (min cols width))).map fun col =>
          character (screen.isLit (blockSize width (max 1 (min cols width)))
            (blockSize height (max 1 (min rows height))) col row) :=
  rfl

theorem length_render : (screen.render cols rows).length = max 1 (min rows height) := by
  rw [render_eq_map, List.length_map, List.length_range]

variable {screen cols rows}

theorem length_of_mem_render {line : String} (member : line ∈ screen.render cols rows) :
    line.length = max 1 (min cols width) := by
  rw [render_eq_map] at member
  obtain ⟨row, -, rfl⟩ := List.mem_map.1 member
  rw [String.length_ofList, List.length_map, List.length_range]

theorem charAt?_render (screen : Screen) (cols rows : Nat) {col row : Nat}
    (col_lt : col < max 1 (min cols width)) (row_lt : row < max 1 (min rows height)) :
    charAt? (screen.render cols rows) col row =
      some (character (screen.isLit (blockSize width (max 1 (min cols width)))
        (blockSize height (max 1 (min rows height))) col row)) := by
  rw [charAt?, render_eq_map, List.getElem?_map, List.getElem?_range row_lt, Option.map_some,
    Option.bind_some, String.toList_ofList, List.getElem?_map, List.getElem?_range col_lt,
    Option.map_some]

/-- The characters of a picture are those of its columns and lines. -/
theorem exists_charAt?_of_mem_render {line : String} {char : Char}
    (line_mem : line ∈ screen.render cols rows) (char_mem : char ∈ line.toList) :
    ∃ col < max 1 (min cols width), ∃ row < max 1 (min rows height),
      charAt? (screen.render cols rows) col row = some char := by
  obtain ⟨row, row_lt, found_line⟩ := List.getElem_of_mem line_mem
  obtain ⟨col, col_lt, found_char⟩ := List.getElem_of_mem char_mem
  refine ⟨col, ?_, row, ?_, ?_⟩
  · rwa [String.length_toList, length_of_mem_render line_mem] at col_lt
  · rwa [length_render] at row_lt
  · rw [charAt?, List.getElem?_eq_getElem row_lt, found_line, Option.bind_some,
      List.getElem?_eq_getElem col_lt, found_char]

theorem isLit_iff {blockWidth blockHeight col row : Nat} :
    screen.isLit blockWidth blockHeight col row = true ↔
      ∃ x y, x.val ∈ block blockWidth width col ∧ y.val ∈ block blockHeight height row ∧
        screen.pixel x y = true := by
  simp only [isLit, List.any_eq_true]
  constructor
  · rintro ⟨y, y_mem, x, x_mem, black⟩
    have inside : x < width ∧ y < height := ⟨(mem_block_iff.1 x_mem).2.2, (mem_block_iff.1 y_mem).2.2⟩
    rw [isBlack, dif_pos inside] at black
    exact ⟨⟨x, inside.1⟩, ⟨y, inside.2⟩, x_mem, y_mem, black⟩
  · rintro ⟨x, y, x_mem, y_mem, black⟩
    refine ⟨y, y_mem, x, x_mem, ?_⟩
    rw [isBlack, dif_pos ⟨x.isLt, y.isLt⟩]
    exact black

theorem exists_mem_of_charAt? {picture : List String} {col row : Nat} {char : Char}
    (found : charAt? picture col row = some char) : ∃ line ∈ picture, char ∈ line.toList := by
  obtain ⟨line, found_line, found_char⟩ := Option.bind_eq_some_iff.1 found
  exact ⟨line, List.mem_of_getElem? found_line, List.mem_of_getElem? found_char⟩

/-- The pixels of a picture lie in the blocks of its characters. -/
theorem isLit_of_pixel {x : Fin width} {y : Fin height} (black : screen.pixel x y = true) :
    screen.isLit (blockSize width (max 1 (min cols width)))
      (blockSize height (max 1 (min rows height)))
      (x / blockSize width (max 1 (min cols width)))
      (y / blockSize height (max 1 (min rows height))) = true := by
  have width_pos : 0 < blockSize width (max 1 (min cols width)) :=
    blockSize_pos (by decide) (Nat.le_max_left 1 (min cols width))
  have height_pos : 0 < blockSize height (max 1 (min rows height)) :=
    blockSize_pos (by decide) (Nat.le_max_left 1 (min rows height))
  exact isLit_iff.2 ⟨x, y, (mem_block_iff_eq_div width_pos x.isLt).2 rfl,
    (mem_block_iff_eq_div height_pos y.isLt).2 rfl, black⟩

/-- A picture is all white exactly if the screen is. -/
theorem forall_mem_render_eq_iff :
    (∀ line ∈ screen.render cols rows, ∀ char ∈ line.toList, char = '.') ↔ screen = .zero := by
  rw [← forall_pixel_eq_false_iff]
  constructor
  · intro dark x y
    have found := charAt?_render screen cols rows
      (div_blockSize_lt (Nat.le_max_left 1 (min cols width)) x.isLt)
      (div_blockSize_lt (Nat.le_max_left 1 (min rows height)) y.isLt)
    obtain ⟨line, line_mem, char_mem⟩ := exists_mem_of_charAt? found
    have unlit := character_eq_dark_iff.1 (dark line line_mem _ char_mem)
    by_contra black
    rw [Bool.not_eq_false] at black
    rw [isLit_of_pixel black] at unlit
    contradiction
  · intro none_black line line_mem char char_mem
    obtain ⟨col, col_lt, row, row_lt, found⟩ := exists_charAt?_of_mem_render line_mem char_mem
    rw [charAt?_render screen cols rows col_lt row_lt] at found
    rw [← Option.some.inj found, character_eq_dark_iff, Bool.eq_false_iff]
    intro lit
    obtain ⟨x, y, -, -, black⟩ := isLit_iff.1 lit
    rw [none_black x y] at black
    contradiction

/-- In blocks of one pixel each, a character is its pixel. -/
theorem isLit_one (x : Fin width) (y : Fin height) :
    screen.isLit 1 1 x.val y.val = screen.pixel x y := by
  rw [Bool.eq_iff_iff, isLit_iff]
  simp only [mem_block_iff_eq_div Nat.one_pos (Fin.isLt _), Nat.div_one]
  constructor
  · rintro ⟨x', y', x_eq, y_eq, black⟩
    rwa [Fin.ext x_eq, Fin.ext y_eq]
  · intro black
    exact ⟨x, y, rfl, rfl, black⟩

/-- The largest picture is a map of the pixels. -/
theorem charAt?_render_full (x : Fin width) (y : Fin height) :
    charAt? (screen.render width height) x.val y.val = some (character (screen.pixel x y)) := by
  have found := charAt?_render screen width height x.isLt y.isLt
  have width_one : blockSize width (max 1 (min width width)) = 1 := blockSize_self (by decide)
  have height_one : blockSize height (max 1 (min height height)) = 1 := blockSize_self (by decide)
  rwa [width_one, height_one, isLit_one] at found

/-- A picture is drawn without a failed check and has the size that was asked for, limited
to the number of pixels, in two characters.  Every pixel lies in the block of one
character, which exists, and a character is black exactly if a pixel of its block is.  So
a picture is all white exactly if the screen is, and the largest picture shows each pixel. -/
theorem render_loses_and_invents_no_pixel (screen : Screen) (cols rows : Nat) :
    let columns := max 1 (min cols 512)
    let lines := max 1 (min rows 256)
    let blockWidth := blockSize 512 columns
    let blockHeight := blockSize 256 lines
    let picture := screen.render cols rows
    Checked.render screen cols rows = .ok picture ∧
    (picture.length = lines ∧ ∀ line ∈ picture, line.length = columns ∧
      ∀ char ∈ line.toList, char = '#' ∨ char = '.') ∧
    (∀ (x : Fin width) (y : Fin height),
      x / blockWidth < columns ∧ y / blockHeight < lines ∧
        ∀ col row, x.val ∈ block blockWidth 512 col ∧ y.val ∈ block blockHeight 256 row ↔
          col = x / blockWidth ∧ row = y / blockHeight) ∧
    (∀ col < columns, ∀ row < lines, charAt? picture col row = some '#' ↔
      ∃ x y, x.val ∈ block blockWidth 512 col ∧ y.val ∈ block blockHeight 256 row ∧
        screen.pixel x y = true) ∧
    ((∀ line ∈ picture, ∀ char ∈ line.toList, char = '.') ↔ screen = .zero) ∧
    ∀ x y, charAt? (screen.render 512 256) x.val y.val =
      some (if screen.pixel x y then '#' else '.') := by
  intro columns lines blockWidth blockHeight picture
  have columns_pos : 0 < columns := Nat.le_max_left 1 _
  have lines_pos : 0 < lines := Nat.le_max_left 1 _
  refine ⟨Checked.render_eq screen cols rows, ⟨length_render screen cols rows, ?_⟩, ?_, ?_,
    forall_mem_render_eq_iff, charAt?_render_full⟩
  · intro line line_mem
    refine ⟨length_of_mem_render line_mem, fun char char_mem => ?_⟩
    obtain ⟨col, col_lt, row, row_lt, found⟩ := exists_charAt?_of_mem_render line_mem char_mem
    rw [charAt?_render screen cols rows col_lt row_lt] at found
    rw [← Option.some.inj found]
    exact character_eq_or _
  · intro x y
    refine ⟨div_blockSize_lt columns_pos x.isLt, div_blockSize_lt lines_pos y.isLt,
      fun col row => ?_⟩
    exact and_congr
      (mem_block_iff_eq_div (blockSize_pos (by decide) columns_pos) x.isLt)
      (mem_block_iff_eq_div (blockSize_pos (by decide) lines_pos) y.isLt)
  · intro col col_lt row row_lt
    rw [charAt?_render screen cols rows col_lt row_lt, Option.some.injEq, character_eq_lit_iff]
    exact isLit_iff

end HackComputer.Screen
