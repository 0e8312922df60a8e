import HackComputer.Proofs.Instruction.UnusedBits
import HackComputer.Proofs.Machine.Cycle

/-!
# Control lines

The processor takes what it loads, writes and jumps on from the decoded instruction, and
its operand and the setting of the arithmetic/logic unit from the control lines.  Both are
derived from the same word, and they agree: every line is a bit of the word, gated by the
bit that tells the kinds of instructions apart, and the lines alone say what an evaluation
of the word is, but for the literal that an address instruction loads.
-/

namespace HackComputer

namespace ControlSignals

/-- The second operand that the lines select. -/
def operand (signals : ControlSignals) (a inM : Word) : Word :=
  match signals.ySource with
  | .register => a
  | .memory => inM

/-- The control lines wired to the bits of a word.  Bit 15 gates all others, and selects
what A loads. -/
def ofWord (word : Word) : ControlSignals :=
  let line (index : Nat) : Bool := word.getLsbD 15 && word.getLsbD index
  { zx := line 11
    nx := line 10
    zy := line 9
    ny := line 8
    f := line 7
    no := line 6
    destA := line 5
    destD := line 4
    destM := line 3
    jumpLt := line 2
    jumpEq := line 1
    jumpGt := line 0
    ySource := if line 12 then .memory else .register
    addressSource := if word.getLsbD 15 then .computed else .literal }

end ControlSignals

/-- Decoding puts every bit of a word on its control line. -/
theorem signals_decode (word : Word) : (Instruction.decode word).signals = .ofWord word := by
  rw [Instruction.decode]
  cases kind : word.getLsbD 15 with
  | false =>
      simp only [ControlSignals.ofWord, kind]
      rfl
  | true =>
      simp [ControlSignals.ofWord, kind, Instruction.signals, AluFlags.ofField, Dest.ofField,
        Jump.ofField]

namespace Evaluation

/-- An evaluation by a processor that is offered `inM` does what its control lines say. -/
structure FollowsLines (evaluation : Evaluation) (cpu : Cpu) (inM : Word) : Prop where
  loads_a : evaluation.nextA.isSome = evaluation.signals.loadsA
  /-- What A loads is the literal of the instruction, which then has one, or the result. -/
  literal : evaluation.signals.addressSource = .literal →
    ∃ literal, evaluation.instruction = .address literal ∧ evaluation.nextA = some literal
  computed : evaluation.signals.addressSource = .computed →
    ∀ value ∈ evaluation.nextA, value = evaluation.alu.out
  loads_d : evaluation.nextD.isSome = evaluation.signals.destD
  result : ∀ value ∈ evaluation.nextD, value = evaluation.alu.out
  writes : evaluation.writeM = evaluation.signals.destM
  jumps : evaluation.jump = evaluation.signals.jump.isTaken evaluation.alu.zr evaluation.alu.ng
  alu : evaluation.alu = Alu.compute cpu.d (evaluation.signals.operand cpu.a inM)
    evaluation.signals.alu
  /-- Memory is offered the result at the old A, whether it is written or not. -/
  outM : evaluation.outM = evaluation.alu.out
  addressM : evaluation.addressM = cpu.addressM

variable {first second : Evaluation} {cpu : Cpu} {inM : Word}

/-- What a register loads is known if there is only one value to load. -/
theorem eq_of_isSome_eq {loaded loaded' : Option Word} {result : Word}
    (same : loaded.isSome = loaded'.isSome) (only : ∀ value ∈ loaded, value = result)
    (only' : ∀ value ∈ loaded', value = result) : loaded = loaded' := by
  cases loaded with
  | none => exact (Option.not_isSome_iff_eq_none.1 (Bool.eq_false_iff.1 same.symm)).symm
  | some value =>
      obtain ⟨value', rfl⟩ := Option.isSome_iff_exists.1 same.symm
      rw [only value rfl, only' value' rfl]

theorem FollowsLines.nextA_eq (follows : first.FollowsLines cpu inM)
    (follows' : second.FollowsLines cpu inM)
    (instruction_eq : first.instruction = second.instruction)
    (signals_eq : first.signals = second.signals) (alu_eq : first.alu = second.alu) :
    first.nextA = second.nextA := by
  cases source : first.signals.addressSource with
  | literal =>
      obtain ⟨literal, found, loaded⟩ := follows.literal source
      obtain ⟨literal', found', loaded'⟩ := follows'.literal (signals_eq ▸ source)
      rw [instruction_eq, found'] at found
      rw [loaded, loaded', Instruction.address.inj found]
  | computed =>
      have only := follows'.computed (signals_eq ▸ source)
      rw [← alu_eq] at only
      refine eq_of_isSome_eq ?_ (follows.computed source) only
      rw [follows.loads_a, follows'.loads_a, signals_eq]

/-- There is only one evaluation of an instruction that does what given control lines
say. -/
theorem FollowsLines.eq (follows : first.FollowsLines cpu inM)
    (follows' : second.FollowsLines cpu inM)
    (instruction_eq : first.instruction = second.instruction)
    (signals_eq : first.signals = second.signals) : first = second := by
  have alu_eq : first.alu = second.alu := by
    rw [follows.alu, follows'.alu, signals_eq]
  have nextA_eq := follows.nextA_eq follows' instruction_eq signals_eq alu_eq
  have nextD_eq : first.nextD = second.nextD := by
    refine eq_of_isSome_eq ?_ follows.result (alu_eq ▸ follows'.result)
    rw [follows.loads_d, follows'.loads_d, signals_eq]
  have jump_eq : first.jump = second.jump := by
    rw [follows.jumps, follows'.jumps, signals_eq, alu_eq]
  have outM_eq : first.outM = second.outM := by
    rw [follows.outM, follows'.outM, alu_eq]
  have writeM_eq : first.writeM = second.writeM := by
    rw [follows.writes, follows'.writes, signals_eq]
  have addressM_eq : first.addressM = second.addressM := by
    rw [follows.addressM, follows'.addressM]
  cases first
  cases second
  rw [Evaluation.mk.injEq]
  exact ⟨instruction_eq, signals_eq, alu_eq, nextA_eq, nextD_eq, jump_eq, outM_eq, writeM_eq,
    addressM_eq⟩

end Evaluation

namespace Cpu

theorem evaluate_instruction (cpu : Cpu) (word inM : Word) :
    (cpu.evaluate word inM).instruction = Instruction.decode word := by
  simp only [evaluate]
  split <;> rfl

theorem evaluate_followsLines (cpu : Cpu) (word inM : Word) :
    (cpu.evaluate word inM).FollowsLines cpu inM := by
  cases found : Instruction.decode word with
  | address literal =>
      rw [evaluate, found]
      exact {
        loads_a := rfl
        literal := fun _ => ⟨literal, rfl, rfl⟩
        computed := fun source => AddressSource.noConfusion source
        loads_d := rfl
        result := fun _ loaded => absurd loaded (Option.not_mem_none _)
        writes := rfl
        jumps := rfl
        alu := rfl
        outM := rfl
        addressM := rfl }
  | compute fields =>
      have isSome_eq (line : Bool) (out : Word) :
          (if line then some out else none).isSome = line := by
        cases line <;> rfl
      rw [evaluate, found]
      exact {
        loads_a := isSome_eq _ _
        literal := fun source => AddressSource.noConfusion source
        computed := by simp
        loads_d := isSome_eq _ _
        result := by simp
        writes := rfl
        jumps := rfl
        alu := rfl
        outM := rfl
        addressM := rfl }

/-- An evaluation is the only one of its instruction that does what its control lines say,
and the lines are the bits of the word.  So the word that encodes the instruction, which may
differ from the given one in its unused bits, is evaluated in the same way. -/
theorem evaluate_is_what_lines_say (cpu : Cpu) (word inM : Word) :
    let evaluation := cpu.evaluate word inM
    evaluation.instruction = Instruction.decode word ∧
    evaluation.signals = .ofWord word ∧
    evaluation.FollowsLines cpu inM ∧
    (∀ other : Evaluation, other.instruction = evaluation.instruction →
      other.signals = evaluation.signals → other.FollowsLines cpu inM → other = evaluation) ∧
    cpu.evaluate (Instruction.encode (Instruction.decode word)) inM = evaluation := by
  intro evaluation
  have follows : evaluation.FollowsLines cpu inM := cpu.evaluate_followsLines word inM
  refine ⟨evaluate_instruction cpu word inM, ?_, follows, ?_, ?_⟩
  · rw [evaluate_signals, signals_decode]
  · intro other instruction_eq signals_eq other_follows
    exact other_follows.eq follows instruction_eq signals_eq
  · rw [evaluate, Instruction.decode_encode_iff.2 (Instruction.fitsWord_decode word)]
    rfl

end Cpu

end HackComputer
