import HackComputer.Assembly
import HackComputer.Proofs.Machine.Execution

/-!
# Multiplication by repeated addition

The platform cannot multiply.  This program counts `RAM[0]` down to zero and adds
`RAM[1]` to `RAM[2]` each time, so that the sum ends as the product modulo `2 ^ 16`.
The loop begins at address 2 and the program idles at address 14.
-/

namespace HackComputer

/-- A word other than zero is one more than the word before it. -/
theorem Word.toNat_sub_one {word : Word} (not_zero : word ≠ 0) :
    (word - 1).toNat + 1 = word.toNat := by
  have positive : 1 ≤ word.toNat := Nat.one_le_iff_ne_zero.2 fun is_zero =>
    not_zero (BitVec.eq_of_toNat_eq is_zero)
  rw [BitVec.toNat_sub_of_le positive]
  exact Nat.sub_add_cancel positive

namespace Multiply

/-- `RAM[2]` becomes the product of `RAM[0]` and `RAM[1]`, and `RAM[0]` zero. -/
def program : List Instruction :=
  let nowhere : Dest := ⟨false, false, false⟩
  let toD : Dest := ⟨false, true, false⟩
  let toM : Dest := ⟨false, false, true⟩
  let never : Jump := ⟨false, false, false⟩
  let ifZero : Jump := ⟨false, true, false⟩
  let always : Jump := ⟨true, true, true⟩
  [.address 2, .compute ⟨.register, AluFunction.zero.flags, toM, never⟩,
    .address 0, .compute ⟨.memory, AluFunction.y.flags, toD, never⟩,
    .address 14, .compute ⟨.register, AluFunction.x.flags, nowhere, ifZero⟩,
    .address 1, .compute ⟨.memory, AluFunction.y.flags, toD, never⟩,
    .address 2, .compute ⟨.memory, AluFunction.xPlusY.flags, toM, never⟩,
    .address 0, .compute ⟨.memory, AluFunction.yMinusOne.flags, toM, never⟩,
    .address 2, .compute ⟨.register, AluFunction.zero.flags, nowhere, always⟩,
    .address 14, .compute ⟨.register, AluFunction.zero.flags, nowhere, always⟩]

/-- The program as it is loaded. -/
def words : List Word :=
  program.map Instruction.encode

example : words.map Assembly.disassemble =
    ["@2", "M=0", "@0", "D=M", "@14", "D;JEQ", "@1", "D=M", "@2", "M=D+M", "@0", "M=M-1", "@2",
      "0;JMP", "@14", "0;JMP"] := by
  decide +kernel

variable {a d : Word} {memory : Memory}

/-! ## The parts of the program -/

/-- The sum starts at zero. -/
theorem leads_to_loop : Leads program 2 ⟨0, a, d, memory⟩ ⟨2, 2, d, memory.store 2 0⟩ :=
  .addressAndCompute false rfl rfl rfl rfl (by decide) rfl

/-- What a round of the loop does to memory. -/
def added (memory : Memory) : Memory :=
  let sum := memory.store 2 (memory.word 1 + memory.word 2)
  sum.store 0 (sum.word 0 - 1)

/-- A round of the loop. -/
theorem leads_round (counts : memory.word 0 ≠ 0) :
    Leads program 12 ⟨2, a, d, memory⟩ ⟨2, 2, memory.word 1, added memory⟩ := by
  have not_zero : Jump.isTaken ⟨false, true, false⟩ (memory.word 0 == 0) (memory.word 0).msb =
      false := by
    rw [beq_false_of_ne counts]
    rfl
  have counter : Leads program 2 ⟨2, a, d, memory⟩ ⟨4, 0, memory.word 0, memory⟩ :=
    .addressAndCompute false rfl rfl rfl rfl (by decide) rfl
  have goes_on : Leads program 2 ⟨4, 0, memory.word 0, memory⟩ ⟨6, 14, memory.word 0, memory⟩ :=
    .addressAndCompute false rfl rfl rfl not_zero (by decide) rfl
  have addend : Leads program 2 ⟨6, 14, memory.word 0, memory⟩ ⟨8, 1, memory.word 1, memory⟩ :=
    .addressAndCompute false rfl rfl rfl rfl (by decide) rfl
  have adds : Leads program 2 ⟨8, 1, memory.word 1, memory⟩
      ⟨10, 2, memory.word 1, memory.store 2 (memory.word 1 + memory.word 2)⟩ :=
    .addressAndCompute false rfl rfl rfl rfl (by decide) rfl
  have counts_down : Leads program 2
      ⟨10, 2, memory.word 1, memory.store 2 (memory.word 1 + memory.word 2)⟩
      ⟨12, 0, memory.word 1, added memory⟩ :=
    .addressAndCompute false rfl rfl rfl rfl (by decide) rfl
  have back : Leads program 2 ⟨12, 0, memory.word 1, added memory⟩
      ⟨2, 2, memory.word 1, added memory⟩ :=
    .addressAndCompute true rfl rfl rfl (Jump.isTaken_always _ _) (by decide) rfl
  exact counter.trans (goes_on.trans (addend.trans (adds.trans (counts_down.trans back))))

/-- The loop is left when the counter is zero. -/
theorem leads_to_end (done : memory.word 0 = 0) :
    Leads program 5 ⟨2, a, d, memory⟩ ⟨15, 14, 0, memory⟩ := by
  have counter : Leads program 2 ⟨2, a, d, memory⟩ ⟨4, 0, 0, memory⟩ :=
    .addressAndCompute false rfl rfl done rfl (by decide) rfl
  have leaves : Leads program 2 ⟨4, 0, 0, memory⟩ ⟨14, 14, 0, memory⟩ :=
    .addressAndCompute true rfl rfl rfl rfl (by decide) rfl
  have target : Leads program 1 ⟨14, 14, 0, memory⟩ ⟨15, 14, 0, memory⟩ :=
    .address 14 rfl
  exact counter.trans (leaves.trans target)

/-! ## The loop -/

theorem word_added_zero : (added memory).word 0 = memory.word 0 - 1 := by
  rw [added, Memory.word_store, if_pos (by decide), Memory.word_store, if_neg (by decide)]

theorem word_added_two : (added memory).word 2 = memory.word 1 + memory.word 2 := by
  rw [added, Memory.word_store, if_neg (by decide), Memory.word_store, if_pos (by decide)]

theorem word_added_of_ne {address : Word} (not_zero : address.low15 ≠ 0)
    (not_two : address.low15 ≠ 2) : (added memory).word address = memory.word address := by
  rw [added, Memory.word_store, if_neg fun stored => not_zero stored.1.symm, Memory.word_store,
    if_neg fun stored => not_two stored.1.symm]

/-- Data memory at the head of the loop after `done` rounds, for a program that was
started with `start`. -/
structure Invariant (start : Memory) (done : Nat) (memory : Memory) : Prop where
  counter : (memory.word 0).toNat + done = (start.word 0).toNat
  sum : memory.word 2 = BitVec.ofNat 16 done * start.word 1
  frame : ∀ address : Word, address.low15 ≠ 0 → address.low15 ≠ 2 →
    memory.word address = start.word address

namespace Invariant

variable {start : Memory} {done : Nat}

theorem zero : Invariant start 0 (start.store 2 0) where
  counter := by rw [Memory.word_store, if_neg (by decide), Nat.add_zero]
  sum := by rw [Memory.word_store, if_pos (by decide), BitVec.ofNat_eq_ofNat, BitVec.zero_mul]
  frame address _ not_two := by
    rw [Memory.word_store, if_neg fun stored => not_two stored.1.symm]

theorem succ (invariant : Invariant start done memory) (counts : memory.word 0 ≠ 0) :
    Invariant start (done + 1) (added memory) where
  counter := by
    rw [word_added_zero, ← invariant.counter, Nat.add_comm done, ← Nat.add_assoc,
      Word.toNat_sub_one counts]
  sum := by
    have one_more : BitVec.ofNat 16 (done + 1) = 1 + BitVec.ofNat 16 done := by
      rw [BitVec.ofNat_add, add_comm]
      rfl
    rw [word_added_two, invariant.sum, invariant.frame 1 (by decide) (by decide), one_more, add_mul,
      one_mul]
  frame address not_zero not_two := by
    rw [word_added_of_ne not_zero not_two, invariant.frame address not_zero not_two]

/-- The loop makes as many rounds as the counter says. -/
theorem leads (within : done ≤ (start.word 0).toNat) :
    ∃ a' d' memory, Invariant start done memory ∧
      Leads program (2 + 12 * done) ⟨0, a, d, start⟩ ⟨2, a', d', memory⟩ := by
  induction done with
  | zero => exact ⟨_, _, _, zero, leads_to_loop⟩
  | succ done inductionHypothesis =>
      obtain ⟨a', d', memory, invariant, leads⟩ :=
        inductionHypothesis (Nat.le_of_succ_le within)
      have counts : memory.word 0 ≠ 0 := by
        intro is_zero
        have counter := invariant.counter
        rw [is_zero, BitVec.ofNat_eq_ofNat, BitVec.toNat_ofNat, Nat.zero_mod,
          Nat.zero_add] at counter
        exact Nat.ne_of_lt within counter
      exact ⟨_, _, _, invariant.succ counts, leads.trans (leads_round counts)⟩

theorem word_zero_eq_zero (invariant : Invariant start (start.word 0).toNat memory) :
    memory.word 0 = 0 := by
  apply BitVec.eq_of_toNat_eq
  exact Nat.add_eq_right.1 invariant.counter

theorem word_two_eq_mul (invariant : Invariant start (start.word 0).toNat memory) :
    memory.word 2 = start.word 0 * start.word 1 := by
  rw [invariant.sum, BitVec.ofNat_toNat, BitVec.setWidth_eq]

theorem peek_eq (invariant : Invariant start done memory) {address : Word}
    (not_zero : address ≠ 0) (not_two : address ≠ 2) :
    memory.peek address = start.peek address := by
  rw [Memory.peek_eq_word, Memory.peek_eq_word]
  by_cases below : address.toNat < keyboardAddress
  · have short : address.low15 = address :=
      Word.low15_eq_self_iff.2 (Nat.lt_trans below (by decide))
    rw [if_pos below, if_pos below, invariant.frame address]
    · rwa [short]
    · rwa [short]
  · rw [if_neg below, if_neg below]

end Invariant

/-- The program comes to the end of its last loop. -/
theorem leads_to_idleLoop (start : Memory) :
    ∃ memory, Invariant start (start.word 0).toNat memory ∧
      Leads program (12 * (start.word 0).toNat + 7) ⟨0, a, d, start⟩ ⟨15, 14, 0, memory⟩ := by
  obtain ⟨a', d', memory, invariant, leads⟩ := Invariant.leads (Nat.le_refl (start.word 0).toNat)
  refine ⟨memory, invariant, ?_⟩
  have cycles_eq : 12 * (start.word 0).toNat + 7 = 2 + 12 * (start.word 0).toNat + 5 := by
    omega
  rw [cycles_eq]
  exact leads.trans (leads_to_end invariant.word_zero_eq_zero)

/-! ## A run of the program -/

/-- Loaded into a machine of the default configuration, the program is about to start on
the machine's own registers and data memory. -/
theorem standsAt_load {machine : Machine} (default : machine.config = {})
    (released : machine.resetLine = false) :
    ∃ start, machine.load words = (.ok (), start) ∧ start.cycles = 0 ∧
      start.StandsAt program ⟨0, machine.cpu.a, machine.cpu.d, machine.memory⟩ := by
  have fits : words.length ≤ romSize := by decide
  obtain ⟨ignores, detecting⟩ := Config.mk.inj default
  have executes := machine.executes_of_load fits
  rw [machine.load_of_fits fits] at executes
  refine ⟨_, machine.load_of_fits fits, rfl, ?_⟩
  exact ⟨executes, ⟨detecting, released⟩, ignores, rfl, rfl, rfl, rfl, rfl⟩

/-- The program multiplies.  Loaded into a machine of the default configuration, it halts
after twelve cycles for each unit of the first factor and eight more, at address 14.  The
product of the two factors is then in `RAM[2]`, the first factor has become zero, and
nothing else in RAM or on the screen has changed. -/
theorem run_multiplies {machine : Machine} {first second : Word} {budget : Nat}
    (default : machine.config = {}) (released : machine.resetLine = false)
    (first_eq : machine.peek 0 = .ok first) (second_eq : machine.peek 1 = .ok second)
    (enough : 12 * first.toNat + 8 ≤ budget) :
    ∃ start last, machine.load words = (.ok (), start) ∧
      start.run budget = (.ok (12 * first.toNat + 8), last) ∧
      last.state = .halted ∧ last.cpu.pc = 14 ∧
      last.peek 2 = .ok (first * second) ∧ last.peek 0 = .ok 0 ∧ last.peek 1 = .ok second ∧
      ∀ address, address ≠ 0 → address ≠ 2 → last.peek address = machine.peek address := by
  obtain ⟨start, loaded, cycles_eq, stands⟩ := standsAt_load default released
  obtain ⟨memory, invariant, leads⟩ := leads_to_idleLoop machine.memory
  obtain ⟨middle, reached, stands'⟩ := leads start stands
  obtain ⟨info, stepped, halted, pc_eq, memory_eq⟩ :=
    stands'.halts rfl (Jump.isTaken_always _ _) (.inr ⟨rfl, rfl⟩)
  have word_eq {address : Word} (below : address.toNat < keyboardAddress) :
      machine.peek address = .ok (machine.memory.word address) := by
    rw [Machine.peek, Memory.peek_eq_word, if_pos below]
  have peek_eq (address : Word) : middle.next.peek address = memory.peek address := by
    rw [Machine.peek, memory_eq]
  obtain rfl := Except.ok.inj ((word_eq (by decide)).symm.trans first_eq)
  obtain rfl := Except.ok.inj ((word_eq (by decide)).symm.trans second_eq)
  have within : 12 * (machine.memory.word 0).toNat + 7 + 1 ≤ start.allowance budget := by
    have := (machine.memory.word 0).isLt
    rw [Machine.allowance, cycles_eq, maxCycles]
    omega
  refine ⟨start, middle.next, loaded, ?_, halted, pc_eq, ?_, ?_, ?_, ?_⟩
  · exact Machine.run_of_halts stands.detects reached stands'.running stepped halted within
  · rw [peek_eq, Memory.peek_eq_word, if_pos (by decide), invariant.word_two_eq_mul]
  · rw [peek_eq, Memory.peek_eq_word, if_pos (by decide), invariant.word_zero_eq_zero]
  · rw [peek_eq, invariant.peek_eq (by decide) (by decide)]
    exact word_eq (by decide)
  · intro address not_zero not_two
    rw [peek_eq, invariant.peek_eq not_zero not_two]
    rfl

/-- A new machine with the factors 3 and -2. -/
def factors : Machine :=
  { Machine.ofConfig {} with memory := ((Memory.zero .ignore).store 0 3).store 1 (-2) }

/-- Three times minus two is minus six, after forty-four cycles. -/
theorem run_multiplies_factors :
    factors.peek 0 = .ok 3 ∧ factors.peek 1 = .ok (-2) ∧ ∃ start last,
      factors.load words = (.ok (), start) ∧ start.run 100 = (.ok 44, last) ∧
      last.state = .halted ∧ last.peek 2 = .ok (-6) := by
  have default : factors.config = {} := by
    simp only [factors, Machine.config, Memory.unmapped_store]
    rfl
  have first_eq : factors.peek 0 = .ok 3 := by
    rw [Machine.peek, Memory.peek_eq_word, if_pos (by decide), factors, Memory.word_store,
      if_neg (by decide), Memory.word_store, if_pos (by decide)]
  have second_eq : factors.peek 1 = .ok (-2) := by
    rw [Machine.peek, Memory.peek_eq_word, if_pos (by decide), factors, Memory.word_store,
      if_pos (by decide)]
  have enough : 12 * BitVec.toNat (3 : Word) + 8 ≤ 100 := by decide
  obtain ⟨start, last, loaded, ran, halted, -, product, -⟩ :=
    run_multiplies default rfl first_eq second_eq enough
  exact ⟨first_eq, second_eq, start, last, loaded, ran, halted, product⟩

end Multiply

end HackComputer
