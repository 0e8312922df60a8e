import HackComputer.Proofs.Checked.Screen

/-!
# Listing cells

A dump lists the cells of a range in order, each with its number, as far as there are cells.
It is the same list if the end of the range is computed in 64 bits, and stays at the greatest
number instead of passing it.
-/

namespace HackComputer

namespace Ram

variable {size : Nat} (ram : Ram size)

/-- A cell with its number, or a zero for a cell that does not exist. -/
def entry (index : Nat) : Nat × Word :=
  (index, ram.cells.toList.getD index 0)

theorem entry_eq {index : Nat} (inside : index < size) :
    ram.entry index = (index, ram.read ⟨index, inside⟩) := by
  simp [entry, read, inside]

variable (start count : Nat)

theorem dump_eq_map :
    ram.dump start count = (List.range' start (min count (size - start))).map ram.entry := by
  apply List.ext_getElem
  · simp [dump]
  · intro offset listed _
    have inside : start + offset < size := by
      simp only [dump, List.length_map, List.length_take, List.length_drop, List.length_zipIdx,
        Vector.length_toList] at listed
      omega
    simp [dump, ram.entry_eq inside, read]

theorem length_dump : (ram.dump start count).length = min count (size - start) := by
  rw [dump_eq_map, List.length_map, List.length_range']

theorem getElem?_dump {offset : Nat} (wanted : offset < count) (inside : start + offset < size) :
    (ram.dump start count)[offset]? = some (start + offset, ram.read ⟨_, inside⟩) := by
  have listed : offset < min count (size - start) := by omega
  rw [dump_eq_map, List.getElem?_map, List.getElem?_range' listed, Nat.one_mul, Option.map_some,
    ram.entry_eq inside]

variable {start count}

/-- The cells that are listed are those in the range. -/
theorem mem_dump_iff {index : Nat} {value : Word} :
    (index, value) ∈ ram.dump start count ↔
      start ≤ index ∧ index < start + count ∧
        ∃ inside : index < size, value = ram.read ⟨index, inside⟩ := by
  rw [dump_eq_map, List.mem_map]
  simp only [List.mem_range'_1]
  constructor
  · rintro ⟨place, ⟨from_start, before_end⟩, same⟩
    have inside : place < size := by omega
    rw [ram.entry_eq inside] at same
    obtain ⟨rfl, rfl⟩ := Prod.mk.inj same
    exact ⟨from_start, by omega, inside, rfl⟩
  · rintro ⟨from_start, before_end, inside, rfl⟩
    exact ⟨index, ⟨from_start, by omega⟩, ram.entry_eq inside⟩

/-- They are listed from the lowest to the highest. -/
theorem pairwise_dump :
    (ram.dump start count).Pairwise fun first second => first.1 < second.1 := by
  rw [dump_eq_map, List.pairwise_map]
  exact List.pairwise_lt_range'

end Ram

namespace Checked

/-- The sum of two numbers of 64 bits, or the greatest such number. -/
def sumOrGreatest (x y : Nat) : Nat :=
  min (x + y) (2 ^ 64 - 1)

/-- The cells with their numbers, `count` of them from `start`, as far as the block goes. -/
def dump {size : Nat} (ram : Ram size) (start count : Nat) : Checked (List (Nat × Word)) :=
  let stop := min (sumOrGreatest start count) size
  let first := min start stop
  (List.range' first (stop - first)).mapM fun index => do return (index, ← cell ram index)

/-- No cell outside the block is looked at, whatever range is asked for. -/
theorem dump_eq {size : Nat} (addressable : size < 2 ^ 64) (ram : Ram size) (start count : Nat) :
    dump ram start count = .ok (ram.dump start count) := by
  set stop := min (sumOrGreatest start count) size with stop_eq
  have stop_le : stop ≤ size := Nat.min_le_right _ _
  have listed (index : Nat) (member : index ∈ List.range' (min start stop) (stop - min start stop)) :
      (do return (index, ← cell ram index) : Checked (Nat × Word)) = .ok (ram.entry index) := by
    have inside : index < size := by
      have := List.mem_range'_1.1 member
      omega
    rw [cell_eq ram ⟨index, inside⟩, ram.entry_eq inside]
    rfl
  have range_eq : List.range' (min start stop) (stop - min start stop) =
      List.range' start (min count (size - start)) := by
    rcases Nat.le_total start stop with before | past
    · rw [Nat.min_eq_left before]
      congr 1
      rw [stop_eq, sumOrGreatest]
      omega
    · -- Nothing is listed, because the block ends before `start` or `count` is zero.
      have none_left : min count (size - start) = 0 := by
        rw [stop_eq, sumOrGreatest] at past
        omega
      rw [Nat.min_eq_right past, none_left, Nat.sub_self]
      rfl
  rw [dump, ← stop_eq, mapM_eq listed, range_eq, Ram.dump_eq_map]

end Checked

end HackComputer
