import HackComputer.CommandLine.Value
import HackComputer.Proofs.Text.Integer

/-!
# The grammar of option values

An assignment and a range of cells are each two integers around a separator.  `ReadsParts`
says what such a reader accepts, which is its grammar, and what it blames for a text that
it refuses.  Both readers are instances of one reader of two parts.
-/

namespace HackComputer.CommandLine

open Text (DenotesInt DenotesNat IntegerError isBlank readInt readNat trimBlanks)

/-! ## The first separator -/

/-- The text is these two parts around its first separator. -/
def FallsApart (separator : Char) (chars before after : List Char) : Prop :=
  chars = before ++ separator :: after ∧ separator ∉ before

section Splitting

variable {separator : Char} {chars before after : List Char}

theorem splitAtFirst?_of_fallsApart (apart : FallsApart separator chars before after) :
    splitAtFirst? separator chars = some (before, after) := by
  obtain ⟨rfl, absent⟩ := apart
  have passed : ∀ char ∈ before, (char != separator) = true := by
    intro char member
    rw [bne_iff_ne]
    rintro rfl
    exact absent member
  have stopped : (separator != separator) = false := bne_self_eq_false separator
  simp only [splitAtFirst?, List.dropWhile_append_of_pos passed,
    List.takeWhile_append_of_pos passed, List.dropWhile_cons, List.takeWhile_cons, stopped,
    Bool.false_eq_true, if_false, List.append_nil]

theorem splitAtFirst?_of_not_mem (absent : separator ∉ chars) :
    splitAtFirst? separator chars = none := by
  have all_passed : chars.dropWhile (· != separator) = [] := by
    rw [List.dropWhile_eq_nil_iff]
    intro char member
    rw [bne_iff_ne]
    rintro rfl
    exact absent member
  rw [splitAtFirst?, all_passed]

theorem splitAtFirst?_eq_some_iff :
    splitAtFirst? separator chars = some (before, after) ↔
      FallsApart separator chars before after := by
  refine ⟨fun split => ?_, splitAtFirst?_of_fallsApart⟩
  by_cases present : separator ∈ chars
  · obtain ⟨before', after', apart⟩ := List.eq_append_cons_of_mem present
    rw [splitAtFirst?_of_fallsApart apart] at split
    cases split
    exact apart
  · rw [splitAtFirst?_of_not_mem present] at split
    contradiction

end Splitting

/-! ## Two parts around a separator -/

theorem exists_inPart_eq_error {Part : Type} {name : String} {result : Except IntegerError Part}
    (refused : ∀ part, result ≠ .ok part) :
    ∃ cause, inPart name result = .error (.part name cause) := by
  cases result with
  | ok part => exact absurd rfl (refused part)
  | error cause => exact ⟨cause, rfl⟩

/-- Reads two trimmed parts around the first separator, the one before it first. -/
def readParts {First Second : Type} (separator : Char) (form firstName secondName : String)
    (readFirst : List Char → Except IntegerError First)
    (readSecond : List Char → Except IntegerError Second) (chars : List Char) :
    Except ValueError (First × Second) :=
  match splitAtFirst? separator chars with
  | none => .error (.noSeparator form)
  | some (before, after) => do
    let first ← inPart firstName (readFirst (trimBlanks before))
    let second ← inPart secondName (readSecond (trimBlanks after))
    return (first, second)

/-- The reader accepts exactly the texts of two parts around the first separator that, when
trimmed, denote the value's two halves.  It blames a text that it refuses for a missing
separator; if there is one, for the part before it, unless that denotes one half of a value;
and then for the part after it. -/
structure ReadsParts {Value : Type} (read : List Char → Except ValueError Value) (separator : Char)
    (form firstName secondName : String) (DenotesFirst DenotesSecond : List Char → Value → Prop) :
    Prop where
  accepts : ∀ chars value, read chars = .ok value ↔
    ∃ before after, FallsApart separator chars before after ∧
      DenotesFirst (trimBlanks before) value ∧ DenotesSecond (trimBlanks after) value
  blamesSeparator : ∀ chars, separator ∉ chars → read chars = .error (.noSeparator form)
  blamesFirst : ∀ chars before after, FallsApart separator chars before after →
    (¬∃ value, DenotesFirst (trimBlanks before) value) →
      ∃ cause, read chars = .error (.part firstName cause)
  blamesSecond : ∀ chars before after, FallsApart separator chars before after →
    (∃ value, DenotesFirst (trimBlanks before) value) →
      (¬∃ value, DenotesSecond (trimBlanks after) value) →
        ∃ cause, read chars = .error (.part secondName cause)

section Parts

variable {First Second Value : Type} {separator : Char} {form firstName secondName : String}
  {readFirst : List Char → Except IntegerError First}
  {readSecond : List Char → Except IntegerError Second}

theorem readParts_of_fallsApart {chars before after : List Char}
    (apart : FallsApart separator chars before after) :
    readParts separator form firstName secondName readFirst readSecond chars = (do
      let first ← inPart firstName (readFirst (trimBlanks before))
      let second ← inPart secondName (readSecond (trimBlanks after))
      return (first, second)) := by
  rw [readParts, splitAtFirst?_of_fallsApart apart]

theorem readParts_eq_ok_iff {chars : List Char} {first : First} {second : Second} :
    readParts separator form firstName secondName readFirst readSecond chars = .ok (first, second) ↔
      ∃ before after, FallsApart separator chars before after ∧
        readFirst (trimBlanks before) = .ok first ∧
        readSecond (trimBlanks after) = .ok second := by
  constructor
  · intro accepted
    cases split : splitAtFirst? separator chars with
    | none =>
        rw [readParts, split] at accepted
        exact nomatch accepted
    | some parts =>
        obtain ⟨before, after⟩ := parts
        have apart := splitAtFirst?_eq_some_iff.1 split
        rw [readParts_of_fallsApart apart] at accepted
        refine ⟨before, after, apart, ?_⟩
        cases first_eq : readFirst (trimBlanks before) with
        | error cause =>
            rw [first_eq] at accepted
            exact nomatch accepted
        | ok part =>
            cases second_eq : readSecond (trimBlanks after) with
            | error cause =>
                rw [first_eq, second_eq] at accepted
                exact nomatch accepted
            | ok other =>
                rw [first_eq, second_eq] at accepted
                cases accepted
                exact ⟨rfl, rfl⟩
  · rintro ⟨before, after, apart, first_eq, second_eq⟩
    rw [readParts_of_fallsApart apart, first_eq, second_eq]
    rfl

/-- A reader of two parts reads the values that it makes of them, if each half of such a
value shows which part it was made of. -/
theorem readsParts_of_eq [Inhabited First] [Inhabited Second]
    {read : List Char → Except ValueError Value} {make : First × Second → Value}
    (first : Value → First) (second : Value → Second)
    (read_eq : ∀ chars, read chars =
      (readParts separator form firstName secondName readFirst readSecond chars).map make)
    (make_eq : ∀ value, make (first value, second value) = value)
    (first_make : ∀ chars part, readFirst chars = .ok part →
      ∀ other, first (make (part, other)) = part)
    (second_make : ∀ chars part, readSecond chars = .ok part →
      ∀ other, second (make (other, part)) = part) :
    ReadsParts read separator form firstName secondName
      (fun chars value => readFirst chars = .ok (first value))
      (fun chars value => readSecond chars = .ok (second value)) where
  accepts chars value := by
    rw [read_eq, Text.map_eq_ok_iff]
    constructor
    · rintro ⟨⟨part, other⟩, accepted, rfl⟩
      obtain ⟨before, after, apart, first_eq, second_eq⟩ := readParts_eq_ok_iff.1 accepted
      refine ⟨before, after, apart, ?_, ?_⟩
      · rw [first_make _ _ first_eq, first_eq]
      · rw [second_make _ _ second_eq, second_eq]
    · rintro ⟨before, after, apart, first_eq, second_eq⟩
      exact ⟨(first value, second value),
        readParts_eq_ok_iff.2 ⟨before, after, apart, first_eq, second_eq⟩, (make_eq value).symm⟩
  blamesSeparator chars absent := by
    rw [read_eq, readParts, splitAtFirst?_of_not_mem absent]
    rfl
  blamesFirst chars before after apart none_denoted := by
    have refused : ∀ part, readFirst (trimBlanks before) ≠ .ok part := by
      intro part accepted
      refine none_denoted ⟨make (part, default), ?_⟩
      rw [first_make _ _ accepted, accepted]
    obtain ⟨cause, failed⟩ := exists_inPart_eq_error refused
    refine ⟨cause, ?_⟩
    rw [read_eq, readParts_of_fallsApart apart, failed]
    rfl
  blamesSecond chars before after apart denoted none_denoted := by
    obtain ⟨value, first_eq⟩ := denoted
    have refused : ∀ part, readSecond (trimBlanks after) ≠ .ok part := by
      intro part accepted
      refine none_denoted ⟨make (default, part), ?_⟩
      rw [second_make _ _ accepted, accepted]
    obtain ⟨cause, failed⟩ := exists_inPart_eq_error refused
    refine ⟨cause, ?_⟩
    rw [read_eq, readParts_of_fallsApart apart, first_eq, failed]
    rfl

theorem ReadsParts.congr {read : List Char → Except ValueError Value}
    {DenotesFirst DenotesSecond DenotesFirst' DenotesSecond' : List Char → Value → Prop}
    (reads : ReadsParts read separator form firstName secondName DenotesFirst DenotesSecond)
    (first_iff : ∀ chars value, DenotesFirst chars value ↔ DenotesFirst' chars value)
    (second_iff : ∀ chars value, DenotesSecond chars value ↔ DenotesSecond' chars value) :
    ReadsParts read separator form firstName secondName DenotesFirst' DenotesSecond' := by
  obtain rfl : DenotesFirst = DenotesFirst' := by
    funext chars value
    exact propext (first_iff chars value)
  obtain rfl : DenotesSecond = DenotesSecond' := by
    funext chars value
    exact propext (second_iff chars value)
  exact reads

end Parts

/-! ## Assignments and ranges -/

theorem readAssignment_eq (chars : List Char) :
    readAssignment chars =
      (readParts '=' "ADDR=VALUE" "address" "value" (readNat 0xFFFF) (readInt 16) chars).map
        fun parts => { address := .ofNat 16 parts.1, value := .ofInt 16 parts.2 } := by
  rw [readAssignment, readParts]
  cases splitAtFirst? '=' chars with
  | none => rfl
  | some parts =>
      obtain ⟨before, after⟩ := parts
      dsimp only
      cases readNat 0xFFFF (trimBlanks before) with
      | error _ => rfl
      | ok _ => cases readInt 16 (trimBlanks after) <;> rfl

theorem readCellRange_eq (chars : List Char) :
    readCellRange chars =
      (readParts ':' "START:COUNT" "start" "count" (readNat 0xFFFFFFFFFFFFFFFF)
        (readNat 0xFFFFFFFFFFFFFFFF) chars).map
        fun parts => { start := parts.1, count := parts.2 } := by
  rw [readCellRange, readParts]
  cases splitAtFirst? ':' chars with
  | none => rfl
  | some parts =>
      obtain ⟨before, after⟩ := parts
      dsimp only
      cases readNat 0xFFFFFFFFFFFFFFFF (trimBlanks before) with
      | error _ => rfl
      | ok _ => cases readNat 0xFFFFFFFFFFFFFFFF (trimBlanks after) <;> rfl

/-- An assignment is an unsigned address and a signed value, each of sixteen bits. -/
theorem readsParts_readAssignment :
    ReadsParts readAssignment '=' "ADDR=VALUE" "address" "value"
      (fun chars assignment => DenotesNat chars assignment.address.toNat)
      (fun chars assignment => DenotesInt chars assignment.value.toInt) := by
  have address_iff (chars : List Char) (address : Word) :
      readNat 0xFFFF chars = .ok address.toNat ↔ DenotesNat chars address.toNat := by
    rw [Text.readNat_eq_ok_iff, and_iff_left (Nat.le_of_lt_succ address.isLt)]
  have value_iff (chars : List Char) (value : Word) :
      readInt 16 chars = .ok value.toInt ↔ DenotesInt chars value.toInt := by
    rw [Text.readInt_eq_ok_iff, and_iff_left]
    exact ⟨BitVec.le_toInt value, BitVec.toInt_lt⟩
  refine ReadsParts.congr (readsParts_of_eq (fun assignment => assignment.address.toNat)
    (fun assignment => assignment.value.toInt) readAssignment_eq ?_ ?_ ?_)
    (fun chars assignment => address_iff chars assignment.address)
    (fun chars assignment => value_iff chars assignment.value)
  · intro assignment
    rw [BitVec.ofNat_toNat, BitVec.setWidth_eq, BitVec.ofInt_toInt]
  · intro chars address accepted _
    obtain ⟨-, within⟩ := Text.readNat_eq_ok_iff.1 accepted
    exact Nat.mod_eq_of_lt (Nat.lt_succ_of_le within)
  · intro chars value accepted _
    obtain ⟨-, least, greatest⟩ := Text.readInt_eq_ok_iff.1 accepted
    exact BitVec.toInt_ofInt_eq_self (by decide) least greatest

/-- A range is two unsigned numbers of 64 bits. -/
theorem readsParts_readCellRange :
    ReadsParts readCellRange ':' "START:COUNT" "start" "count"
      (fun chars range => DenotesNat chars range.start ∧ range.start ≤ 0xFFFFFFFFFFFFFFFF)
      (fun chars range => DenotesNat chars range.count ∧ range.count ≤ 0xFFFFFFFFFFFFFFFF) := by
  exact ReadsParts.congr (readsParts_of_eq CellRange.start CellRange.count readCellRange_eq
    (fun _ => rfl) (fun _ _ _ _ => rfl) (fun _ _ _ _ => rfl))
    (fun _ _ => Text.readNat_eq_ok_iff) (fun _ _ => Text.readNat_eq_ok_iff)

/-! ## Printed values -/

/-- A printed number is no separator, nor has one in it. -/
theorem not_mem_toString {separator : Char} (other : ¬separator.isDigit = true) (number : Nat) :
    separator ∉ (toString number).toList := by
  rw [Nat.toString_eq_repr, Nat.toList_repr]
  exact fun member => other ((Text.digitsDenote_toDigits number).decimal separator member)

section Printed

variable {Value : Type} {read : List Char → Except ValueError Value} {separator : Char}
  {form firstName secondName : String} {DenotesFirst DenotesSecond : List Char → Value → Prop}
  {value : Value} {first second blanks₁ blanks₂ blanks₃ blanks₄ : List Char}

/-- Blanks around the parts of a value do not count. -/
theorem ReadsParts.read_surrounded
    (reads : ReadsParts read separator form firstName secondName DenotesFirst DenotesSecond)
    (blank : ∀ char ∈ blanks₁ ++ blanks₂ ++ blanks₃ ++ blanks₄, isBlank char = true)
    (separator_solid : isBlank separator = false) (absent : separator ∉ first)
    (first_solid : ∀ char ∈ first, isBlank char = false)
    (second_solid : ∀ char ∈ second, isBlank char = false)
    (first_denotes : DenotesFirst first value) (second_denotes : DenotesSecond second value) :
    read (blanks₁ ++ first ++ blanks₂ ++ separator :: (blanks₃ ++ second ++ blanks₄)) =
      .ok value := by
  simp only [List.forall_mem_append] at blank
  obtain ⟨⟨⟨blank₁, blank₂⟩, blank₃⟩, blank₄⟩ := blank
  have not_blank {blanks : List Char} (blank : ∀ char ∈ blanks, isBlank char = true) :
      separator ∉ blanks := by
    intro member
    exact absurd (blank separator member) (by rw [separator_solid]; decide)
  have apart : FallsApart separator
      (blanks₁ ++ first ++ blanks₂ ++ separator :: (blanks₃ ++ second ++ blanks₄))
      (blanks₁ ++ first ++ blanks₂) (blanks₃ ++ second ++ blanks₄) := by
    refine ⟨rfl, ?_⟩
    simp only [List.mem_append, not_or]
    exact ⟨⟨not_blank blank₁, absent⟩, not_blank blank₂⟩
  refine (reads.accepts _ _).2 ⟨_, _, apart, ?_, ?_⟩
  · rw [Text.trimBlanks_of_solid blank₁ blank₂ first_solid]
    exact first_denotes
  · rw [Text.trimBlanks_of_solid blank₃ blank₄ second_solid]
    exact second_denotes

end Printed

/-- An assignment is read from exactly the texts of its grammar: around the first `=`, and
without the blanks around them, an unsigned and a signed integer of sixteen bits.  A range is
read in the same way from two unsigned numbers of 64 bits around the first `:`.  Any other
text is refused for the missing separator, else for the part before it, else for the part
after it.  So what is printed, with any blanks around its parts, is read back. -/
theorem option_values_follow_their_grammar :
    ReadsParts readAssignment '=' "ADDR=VALUE" "address" "value"
      (fun chars assignment => DenotesNat chars assignment.address.toNat)
      (fun chars assignment => DenotesInt chars assignment.value.toInt) ∧
    ReadsParts readCellRange ':' "START:COUNT" "start" "count"
      (fun chars range => DenotesNat chars range.start ∧ range.start ≤ 0xFFFFFFFFFFFFFFFF)
      (fun chars range => DenotesNat chars range.count ∧ range.count ≤ 0xFFFFFFFFFFFFFFFF) ∧
    ∀ blanks₁ blanks₂ blanks₃ blanks₄ : List Char,
      (∀ char ∈ blanks₁ ++ blanks₂ ++ blanks₃ ++ blanks₄, isBlank char = true) →
        (∀ address value : Word,
          readAssignment (blanks₁ ++ (toString address.toNat).toList ++ blanks₂ ++
            '=' :: (blanks₃ ++ (toString value.toInt).toList ++ blanks₄)) =
              .ok { address, value }) ∧
        ∀ start count, start ≤ 0xFFFFFFFFFFFFFFFF → count ≤ 0xFFFFFFFFFFFFFFFF →
          readCellRange (blanks₁ ++ (toString start).toList ++ blanks₂ ++
            ':' :: (blanks₃ ++ (toString count).toList ++ blanks₄)) = .ok { start, count } := by
  refine ⟨readsParts_readAssignment, readsParts_readCellRange, ?_⟩
  intro blanks₁ blanks₂ blanks₃ blanks₄ blank
  constructor
  · intro address value
    have address_denotes := Text.denotesNat_toString address.toNat
    have value_denotes := Text.denotesInt_toString value.toInt
    exact readsParts_readAssignment.read_surrounded blank rfl (not_mem_toString (by decide) _)
      address_denotes.solid value_denotes.solid address_denotes value_denotes
  · intro start count start_le count_le
    have start_denotes := Text.denotesNat_toString start
    have count_denotes := Text.denotesNat_toString count
    exact readsParts_readCellRange.read_surrounded blank rfl (not_mem_toString (by decide) _)
      start_denotes.solid count_denotes.solid ⟨start_denotes, start_le⟩ ⟨count_denotes, count_le⟩

/-- The greatest range, and the least value at the greatest address, with blanks around their
parts. -/
theorem extreme_values_are_read :
    (∀ char ∈ [' '] ++ ['\t'] ++ ['\u3000'] ++ [], isBlank char = true) ∧
      readAssignment " 65535\t=\u3000-32768".toList =
        .ok { address := 0xFFFF, value := 0x8000 } ∧
      readCellRange " 18446744073709551615\t:\u300018446744073709551615".toList =
        .ok { start := 0xFFFFFFFFFFFFFFFF, count := 0xFFFFFFFFFFFFFFFF } := by
  have blank : ∀ char ∈ [' '] ++ ['\t'] ++ ['\u3000'] ++ [], isBlank char = true := by
    rw [← List.all_eq_true]
    rfl
  have text_eq : " 18446744073709551615\t:\u300018446744073709551615".toList =
      [' '] ++ (toString 0xFFFFFFFFFFFFFFFF).toList ++ ['\t'] ++
        ':' :: (['\u3000'] ++ (toString 0xFFFFFFFFFFFFFFFF).toList ++ []) := by
    decide +kernel
  obtain ⟨-, -, printed⟩ := option_values_follow_their_grammar
  obtain ⟨assigned, ranged⟩ := printed [' '] ['\t'] ['\u3000'] [] blank
  rw [text_eq]
  exact ⟨blank, assigned 0xFFFF 0x8000, ranged _ _ (by decide) (by decide)⟩

end HackComputer.CommandLine
