import HackComputer.Proofs.Checked.Screen
import HackComputer.Proofs.Debugger.Batch

/-!
# The window on the program

The window shows a slice of program memory around the program counter, cut off at both
ends of memory.  It is the same window if its addresses are computed in sixteen bits, line
by line: no sum of the first address and the number of a line overflows, because the window
starts at most half its length before the program counter.
-/

namespace HackComputer

namespace Debugger

/-- The line of the window that shows an address. -/
def codeLine (machine : Machine) (address : Nat) : CodeLine where
  address
  text := Assembly.disassemble (machine.rom.fetch (.ofNat 16 address))
  current := address == machine.cpu.pc.toNat

end Debugger

/-! ## The window in sixteen bits -/

namespace Checked

/-- The sum of two words without a sign. -/
def wordSum (x y : Word) : Checked Word :=
  if x.toNat + y.toNat < 2 ^ 16 then .ok (x + y) else .error .overflow

/-- The difference of two words without a sign, or zero where it is negative. -/
def differenceOrZero (x y : Word) : Word :=
  if y.toNat ≤ x.toNat then x - y else 0

/-- The line of the window at some distance from its first one, if program memory goes
that far. -/
def codeLine? (machine : Machine) (start offset : Word) : Checked (Option CodeLine) := do
  let address ← wordSum start offset
  if 0x7FFF < address.toNat then return none
  else
    let instruction ← decode (← fetch machine.rom address)
    return some
      { address := address.toNat
        text := Assembly.text instruction
        current := address == machine.cpu.pc }

/-- The window on the program, of `lines` lines, counted in sixteen bits. -/
def codeWindow (debugger : Debugger) (lines : Nat) : Checked (List CodeLine) := do
  let count : Word := .ofNat 16 lines
  let start := differenceOrZero debugger.machine.cpu.pc (count / 2)
  let found ← (List.range count.toNat).mapM fun offset =>
    codeLine? debugger.machine start (.ofNat 16 offset)
  return found.filterMap id

theorem toNat_differenceOrZero (x y : Word) : (differenceOrZero x y).toNat = x.toNat - y.toNat := by
  rw [differenceOrZero]
  split
  · rename_i ordered
    rw [BitVec.toNat_sub_of_le ordered]
  · rename_i reversed
    exact (Nat.sub_eq_zero_of_le (Nat.le_of_not_le reversed)).symm

variable (machine : Machine)

/-- A line without overflow is the line at the sum, if there is program memory. -/
theorem codeLine?_eq {start offset : Word} (fits : start.toNat + offset.toNat < 2 ^ 16) :
    codeLine? machine start offset =
      .ok (if start.toNat + offset.toNat < romSize then
        some (Debugger.codeLine machine (start.toNat + offset.toNat)) else none) := by
  have toNat_sum : (start + offset).toNat = start.toNat + offset.toNat := by
    rw [BitVec.toNat_add, Nat.mod_eq_of_lt fits]
  have current_eq : (start + offset == machine.cpu.pc) =
      (start.toNat + offset.toNat == machine.cpu.pc.toNat) := by
    rw [Bool.eq_iff_iff, beq_iff_eq, beq_iff_eq, ← toNat_sum, BitVec.toNat_inj]
  rw [codeLine?, wordSum, if_pos fits, ok_bind]
  by_cases inside : start.toNat + offset.toNat < romSize
  · have within : ¬0x7FFF < (start + offset).toNat := by
      rw [toNat_sum]
      exact Nat.not_lt.2 (Nat.le_of_lt_succ inside)
    rw [if_neg within, if_pos inside, fetch_eq, ok_bind, decode_eq, ok_bind, pure_eq_ok,
      Debugger.codeLine, ← toNat_sum, BitVec.ofNat_toNat, BitVec.setWidth_eq, toNat_sum, current_eq]
    rfl
  · have past : 0x7FFF < (start + offset).toNat := by
      rw [toNat_sum]
      exact Nat.lt_of_succ_le (Nat.le_of_not_lt inside)
    rw [if_pos past, if_neg inside]
    rfl

/-- The numbers from `start` on, cut off at `limit`. -/
theorem filterMap_range_below {Line : Type} (line : Nat → Line) (start limit count : Nat) :
    (List.range count).filterMap
        (fun offset => if start + offset < limit then some (line (start + offset)) else none) =
      (List.range' start (min count (limit - start))).map line := by
  induction count with
  | zero => simp
  | succ count inductionHypothesis =>
      rw [List.range_succ, List.filterMap_append, inductionHypothesis]
      by_cases inside : start + count < limit
      · have shorter : min count (limit - start) = count := by omega
        have longer : min (count + 1) (limit - start) = count + 1 := by omega
        simp [inside, shorter, longer, List.range'_concat]
      · have same : min (count + 1) (limit - start) = min count (limit - start) := by omega
        simp [inside, same]

/-- The window is computed without overflow, as long as the program counter is in program
memory. -/
theorem codeWindow_eq {debugger : Debugger} (inside : debugger.machine.cpu.pc.toNat ≤ 0x7FFF)
    (lines : Nat) : codeWindow debugger lines = .ok (debugger.codeWindow lines) := by
  have count_eq : (BitVec.ofNat 16 lines).toNat = lines % 0x10000 :=
    BitVec.toNat_ofNat lines 16
  have start_eq : (differenceOrZero debugger.machine.cpu.pc (.ofNat 16 lines / 2)).toNat =
      debugger.machine.cpu.pc.toNat - lines % 0x10000 / 2 := by
    rw [toNat_differenceOrZero, BitVec.toNat_udiv, count_eq]
    rfl
  have line_eq (offset : Nat) (member : offset ∈ List.range (lines % 0x10000)) :
      codeLine? debugger.machine (differenceOrZero debugger.machine.cpu.pc (.ofNat 16 lines / 2))
          (.ofNat 16 offset) =
        .ok (if debugger.machine.cpu.pc.toNat - lines % 0x10000 / 2 + offset < romSize then
          some (Debugger.codeLine debugger.machine
            (debugger.machine.cpu.pc.toNat - lines % 0x10000 / 2 + offset)) else none) := by
    have offset_lt : offset < lines % 0x10000 := List.mem_range.1 member
    have offset_eq : (BitVec.ofNat 16 offset).toNat = offset := by
      rw [BitVec.toNat_ofNat, Nat.mod_eq_of_lt]
      omega
    -- Above the middle of the window there are at most 32767 lines, and as many below it.
    have fits : (differenceOrZero debugger.machine.cpu.pc (.ofNat 16 lines / 2)).toNat +
        (BitVec.ofNat 16 offset).toNat < 2 ^ 16 := by
      rw [start_eq, offset_eq]
      omega
    rw [codeLine?_eq debugger.machine fits, start_eq, offset_eq]
  rw [codeWindow, count_eq, mapM_eq line_eq, ok_bind, pure_eq_ok, List.filterMap_map,
    Function.id_comp]
  exact congrArg Except.ok (filterMap_range_below (Debugger.codeLine debugger.machine) _ _ _)

end Checked

/-! ## The slice that it shows -/

namespace Debugger

variable {debugger : Debugger} {lines : Nat}

/-- Program memory at an address below its size, by the program counter and directly. -/
theorem fetch_ofNat (rom : Rom) {address : Nat} (inside : address < romSize) :
    rom.fetch (.ofNat 16 address) = rom.words[address] := by
  have short : address < 0x8000 := inside
  have toNat_eq : (Word.low15 (.ofNat 16 address)).toNat = address := by
    rw [Word.toNat_low15, BitVec.toNat_ofNat]
    omega
  have bound : (Word.low15 (.ofNat 16 address)).toNat < romSize := Word.toNat_low15_lt _
  have fetched : rom.fetch (.ofNat 16 address) =
      rom.words[(Word.low15 (.ofNat 16 address)).toNat] :=
    rfl
  simp only [fetched, toNat_eq]

theorem codeWindow_eq_map (few : lines < 65536) :
    debugger.codeWindow lines =
      (List.range' (debugger.machine.cpu.pc.toNat - lines / 2)
        (min (debugger.machine.cpu.pc.toNat - lines / 2 + lines) 0x8000 -
          (debugger.machine.cpu.pc.toNat - lines / 2))).map (codeLine debugger.machine) := by
  have count_eq : lines % 0x10000 = lines := Nat.mod_eq_of_lt few
  have length_eq (start : Nat) :
      min lines (romSize - start) = min (start + lines) 0x8000 - start := by
    change min lines (0x8000 - start) = _
    omega
  rw [← length_eq]
  simp only [codeWindow, count_eq]
  rfl

/-- The lines at the program counter in a slice that contains it. -/
theorem filter_current (machine : Machine) {start count : Nat}
    (from_start : start ≤ machine.cpu.pc.toNat) (below : machine.cpu.pc.toNat < start + count) :
    ((List.range' start count).map (codeLine machine)).filter (·.current) =
      [codeLine machine machine.cpu.pc.toNat] := by
  have only : (List.range' start count).filter (fun address => address == machine.cpu.pc.toNat) =
      [machine.cpu.pc.toNat] := by
    rw [List.filter_beq, List.count_eq_one_of_mem List.nodup_range'
      (List.mem_range'_1.2 ⟨from_start, below⟩)]
    rfl
  rw [List.filter_map]
  exact congrArg (List.map (codeLine machine)) only

/-- With the program counter in program memory, the window of fewer than `2 ^ 16` lines shows
the addresses from half its length before the program counter on, or from 0 on, up to its
length or the end of program memory: each in its place, with the word there in symbolic form
and a mark at the program counter, which is on exactly one line of a window that is not empty.
No sum of sixteen bits on the way overflows. -/
theorem codeWindow_is_slice_around_pc (debugger : Debugger) (lines : Nat)
    (inside : debugger.machine.cpu.pc.toNat ≤ 0x7FFF) (few : lines < 65536) :
    let pc := debugger.machine.cpu.pc.toNat
    let start := pc - lines / 2
    let stop := min (start + lines) 0x8000
    (debugger.codeWindow lines).length = stop - start ∧
      (∀ address, start ≤ address → address < stop →
        ∃ below : address < romSize, (debugger.codeWindow lines)[address - start]? = some
          { address
            text := Assembly.disassemble debugger.machine.rom.words[address]
            current := decide (address = pc) }) ∧
      (0 < lines → ((debugger.codeWindow lines).filter (·.current)).length = 1) ∧
      Checked.codeWindow debugger lines = .ok (debugger.codeWindow lines) := by
  intro pc start stop
  have window_eq : debugger.codeWindow lines =
      (List.range' start (stop - start)).map (codeLine debugger.machine) := codeWindow_eq_map few
  refine ⟨?_, ?_, ?_, Checked.codeWindow_eq inside lines⟩
  · rw [window_eq, List.length_map, List.length_range']
  · intro address from_start before_stop
    have below : address < romSize := Nat.lt_of_lt_of_le before_stop (Nat.min_le_right _ _)
    have place : address - start < stop - start := by omega
    refine ⟨below, ?_⟩
    rw [window_eq, List.getElem?_map, List.getElem?_range' place, Nat.one_mul,
      Nat.add_sub_cancel' from_start, Option.map_some, codeLine, fetch_ofNat _ below]
    rfl
  · intro nonempty
    have start_le : start ≤ pc := Nat.sub_le _ _
    have pc_lt : pc < start + (stop - start) := by omega
    rw [window_eq, filter_current debugger.machine start_le pc_lt]
    rfl

/-- A debugger at the end of program memory. -/
def atEnd : Debugger :=
  (holding [] {} (by decide)).setPc 0x7FFF

/-- Of four lines around the end of program memory three are left, and the last one is
current. -/
theorem codeWindow_atEnd :
    atEnd.machine.cpu.pc.toNat ≤ 0x7FFF ∧ 4 < 65536 ∧ (atEnd.codeWindow 4).length = 3 ∧
      (atEnd.codeWindow 4)[2]? = some
        { address := 0x7FFF
          text := Assembly.disassemble atEnd.machine.rom.words[0x7FFF]
          current := true } ∧
      ((atEnd.codeWindow 4).filter (·.current)).length = 1 := by
  have inside : atEnd.machine.cpu.pc.toNat ≤ 0x7FFF := by
    decide
  obtain ⟨length_eq, line_eq, one_current, -⟩ :=
    codeWindow_is_slice_around_pc atEnd 4 inside (by decide)
  obtain ⟨_, last_eq⟩ := line_eq 0x7FFF (by decide) (by decide)
  exact ⟨inside, by decide, length_eq, last_eq, one_current (by decide)⟩

end Debugger

end HackComputer
