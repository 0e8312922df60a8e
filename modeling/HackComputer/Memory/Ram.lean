import HackComputer.Word

/-!
# Blocks of storage

A block has a fixed number of word cells.  Access by an index that is known to
be in the block always succeeds; access by a bare number is checked.
-/

namespace HackComputer

/-- A block of `size` word cells. -/
structure Ram (size : Nat) where
  cells : Vector Word size
  deriving DecidableEq, Repr

namespace Ram

variable {size : Nat}

/-- A block of clear cells. -/
def zero : Ram size :=
  ⟨Vector.replicate size 0⟩

/-- The word in a cell. -/
def read (ram : Ram size) (index : Fin size) : Word :=
  ram.cells[index]

/-- The block after a word is stored in a cell. -/
def write (ram : Ram size) (index : Fin size) (value : Word) : Ram size :=
  ⟨ram.cells.set index value⟩

/-- The word in the cell with number `index`. -/
def read? (ram : Ram size) (index : Nat) : Except OutOfRange Word :=
  if h : index < size then .ok (ram.read ⟨index, h⟩) else .error (.cell index size)

/-- The block after a word is stored in the cell with number `index`. -/
def write? (ram : Ram size) (index : Nat) (value : Word) : Except OutOfRange (Ram size) :=
  if h : index < size then .ok (ram.write ⟨index, h⟩ value) else .error (.cell index size)

/-- The cells with their numbers, `count` of them from `start`, as far as the
block goes. -/
def dump (ram : Ram size) (start count : Nat) : List (Nat × Word) :=
  ((ram.cells.toList.zipIdx.drop start).take count).map Prod.swap

/-- The cells that are not zero, with their numbers. -/
def nonzero (ram : Ram size) : List (Nat × Word) :=
  (ram.dump 0 size).filter fun entry => entry.2 != 0

@[simp]
theorem read_zero (index : Fin size) : (zero : Ram size).read index = 0 := by
  simp [read, zero]

/-- A stored word is read back, and no other cell changes. -/
theorem read_write (ram : Ram size) (stored index : Fin size) (value : Word) :
    (ram.write stored value).read index = if stored = index then value else ram.read index := by
  simp [read, write, Vector.getElem_set, Fin.ext_iff]

end Ram

/-- A block together with its size. -/
structure SizedRam where
  size : Nat
  ram : Ram size
  deriving DecidableEq, Repr

/-- The block with the given cells. -/
def SizedRam.ofCells (cells : List Word) : SizedRam where
  size := cells.length
  ram := ⟨⟨cells.toArray, by simp⟩⟩

end HackComputer
