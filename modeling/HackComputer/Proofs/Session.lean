import HackComputer.Proofs.Machine.Fault
import HackComputer.Proofs.Memory.Program
import HackComputer.Proofs.ProgramFile.Reading
import HackComputer.Session

/-!
# Loading into a session

Each load starts from a new machine.  A program text that is refused is refused before
that, and the session goes on with its old machine.  A list of words that is refused is
refused after that: the old machine is gone.
-/

namespace HackComputer.Session

variable {program : List Word} {count : Nat} {error : SessionError} {last : Session}

/-- A program that fits is loaded into a new machine. -/
theorem start_of_fits (fits : program.length ≤ romSize) :
    start program = (.ok program.length, ⟨(Machine.ofConfig {}).withProgram program fits⟩) := by
  rw [start, Machine.load_of_fits _ fits]

/-- A program that does not fit leaves a new machine without a program. -/
theorem start_of_not_fits (large : ¬program.length ≤ romSize) :
    start program = (.error (.machine (.memory (.programTooLarge program.length))), new) := by
  rw [start, Machine.load_of_not_fits _ large]
  rfl

theorem start_eq_ok_iff :
    start program = (.ok count, last) ↔
      count = program.length ∧ (Machine.ofConfig {}).load program = (.ok (), last.machine) := by
  by_cases fits : program.length ≤ romSize
  · rw [start_of_fits fits, Machine.load_of_fits _ fits]
    rcases last with ⟨machine⟩
    simp [eq_comm]
  · simp [start_of_not_fits fits, Machine.load_of_not_fits _ fits]

theorem start_eq_error_iff :
    start program = (.error error, last) ↔
      romSize < program.length ∧
        error = .machine (.memory (.programTooLarge program.length)) ∧ last = new := by
  by_cases fits : program.length ≤ romSize
  · simp [start_of_fits fits, Nat.not_lt_of_le fits]
  · simp [start_of_not_fits fits, Nat.lt_of_not_le fits, eq_comm]

variable {session : Session} {text : String}

/-- What is read from a text fits, so only its reader can refuse a text. -/
theorem loadText_of_accepted (session : Session) {file : ProgramFile}
    (accepted : ProgramFile.ofText text = .ok file) :
    session.loadText text = start file.instructions ∧ file.instructions.length ≤ romSize := by
  obtain ⟨-, fits⟩ := ProgramFile.eq_ofReadings_of_ofBytes accepted
  refine ⟨?_, fits⟩
  rw [loadText, accepted]

theorem loadText_of_refused (session : Session) {cause : ProgramFileError}
    (refused : ProgramFile.ofText text = .error cause) :
    session.loadText text = (.error (.program cause), session) := by
  rw [loadText, refused]

theorem loadText_eq_ok_iff :
    session.loadText text = (.ok count, last) ↔
      ∃ file, ProgramFile.ofText text = .ok file ∧ count = file.instructions.length ∧
        (Machine.ofConfig {}).load file.instructions = (.ok (), last.machine) := by
  cases read : ProgramFile.ofText text with
  | error cause => simp [session.loadText_of_refused read]
  | ok file =>
      obtain ⟨load_eq, -⟩ := session.loadText_of_accepted read
      simp [load_eq, start_eq_ok_iff]

/-- A text that is refused keeps the session. -/
theorem loadText_eq_error_iff :
    session.loadText text = (.error error, last) ↔
      ∃ cause, ProgramFile.ofText text = .error cause ∧ error = .program cause ∧
        last = session := by
  cases read : ProgramFile.ofText text with
  | error cause => simp [session.loadText_of_refused read, eq_comm]
  | ok file =>
      obtain ⟨load_eq, fits⟩ := session.loadText_of_accepted read
      simp [load_eq, start_of_fits fits]

/-- A text is loaded exactly if its reader accepts it, into a new machine, and a text
that is refused keeps the session.  A list of words is loaded exactly if it fits, into a
new machine; one that does not fit leaves a new machine behind, and so keeps the session
only if that was new. -/
theorem failed_load_keeps_session_iff (session : Session) :
    (∀ text count last, session.loadText text = (.ok count, last) ↔
      ∃ file, ProgramFile.ofText text = .ok file ∧ count = file.instructions.length ∧
        (Machine.ofConfig {}).load file.instructions = (.ok (), last.machine)) ∧
    (∀ text error last, session.loadText text = (.error error, last) ↔
      ∃ cause, ProgramFile.ofText text = .error cause ∧ error = .program cause ∧
        last = session) ∧
    (∀ program count last, session.loadWords program = (.ok count, last) ↔
      count = program.length ∧
        (Machine.ofConfig {}).load program = (.ok (), last.machine)) ∧
    (∀ program error last, session.loadWords program = (.error error, last) ↔
      romSize < program.length ∧
        error = .machine (.memory (.programTooLarge program.length)) ∧ last = new) ∧
    ∀ program error, session.loadWords program = (.error error, session) ↔
      romSize < program.length ∧
        error = .machine (.memory (.programTooLarge program.length)) ∧ session = new :=
  ⟨fun _ _ _ => loadText_eq_ok_iff, fun _ _ _ => loadText_eq_error_iff,
    fun _ _ _ => start_eq_ok_iff, fun _ _ _ => start_eq_error_iff, fun _ _ => start_eq_error_iff⟩

/-- A session with the program `@5`. -/
def holdingFive : Session :=
  ⟨(Machine.ofConfig {}).withProgram [0x0005] (by decide)⟩

/-- The session `holdingFive` after a cycle. -/
def steppedFive : Session :=
  ⟨holdingFive.machine.next⟩

/-- More words than program memory has cells. -/
def tooManyWords : List Word :=
  .replicate 32769 0

/-- A session that has executed a program loses its machine to a list of words that
fails to load. -/
theorem session_lost_to_tooManyWords :
    new.loadWords [0x0005] = (.ok 1, holdingFive) ∧ holdingFive.step.2 = steppedFive ∧
      ∃ error last, steppedFive.loadWords tooManyWords = (.error error, last) ∧
        last.machine ≠ steppedFive.machine := by
  have stepped : holdingFive.machine.step =
      (.ok holdingFive.machine.cycleInfo, holdingFive.machine.next) :=
    Machine.step_of_ignore rfl
  have large : romSize < tooManyWords.length := by
    rw [tooManyWords, List.length_replicate]
    decide
  refine ⟨start_of_fits _, ?_, _, new, start_eq_error_iff.2 ⟨large, rfl, rfl⟩, ?_⟩
  · rw [step, stepped]
    rfl
  · intro same
    have counted : 0 = 1 := congrArg Machine.cycles same
    exact Nat.zero_ne_one counted

end HackComputer.Session
