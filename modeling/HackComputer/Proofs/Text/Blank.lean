import HackComputer.Text.Blank
import Mathlib.Data.List.DropRight

/-!
# Trimmed text and its first token

What trimming leaves of a text, and which part of a text is its first token,
without the scans that compute them.
-/

namespace HackComputer.Text

variable {chars token : List Char}

theorem trimBlanks_eq_rdropWhile (chars : List Char) :
    trimBlanks chars = (chars.dropWhile isBlank).rdropWhile isBlank :=
  rfl

theorem trimBlanks_eq_nil_iff : trimBlanks chars = [] ↔ chars.dropWhile isBlank = [] := by
  rw [trimBlanks_eq_rdropWhile, List.rdropWhile_eq_nil_iff]
  constructor
  · intro blank
    cases rest_eq : chars.dropWhile isBlank with
    | nil => rfl
    | cons char rest =>
        have kept := List.head?_dropWhile_not isBlank chars
        rw [rest_eq] at kept
        have dropped := blank char (by rw [rest_eq]; exact List.mem_cons_self)
        exact absurd (dropped.symm.trans kept) (by decide)
  · intro empty
    rw [empty]
    exact fun _ member => absurd member List.not_mem_nil

/-- Trimming the end of a text keeps what starts it, up to a character that is
not blank. -/
theorem isPrefix_trimBlanks_iff {part : List Char} (solid : ∀ char ∈ part, isBlank char = false) :
    part <+: trimBlanks chars ↔ part <+: chars.dropWhile isBlank := by
  rw [trimBlanks_eq_rdropWhile]
  constructor
  · exact fun starts => starts.trans (List.rdropWhile_prefix _ _)
  · rintro ⟨rest, rest_eq⟩
    have kept : part.rdropWhile isBlank = part := by
      rw [List.rdropWhile_eq_self_iff]
      intro nonempty
      rw [solid _ (List.getLast_mem nonempty)]
      exact Bool.false_ne_true
    rw [List.rdropWhile] at kept
    rw [← rest_eq, List.rdropWhile, List.reverse_append, List.dropWhile_append]
    split
    · simp only [kept, List.prefix_rfl]
    · rw [List.reverse_append, List.reverse_reverse]
      exact List.prefix_append _ _

theorem dropWhile_isBlank_of_solid (solid : ∀ char ∈ chars, isBlank char = false) :
    chars.dropWhile isBlank = chars := by
  rw [List.dropWhile_eq_self_iff]
  intro nonempty
  rw [solid _ (List.getElem_mem nonempty)]
  exact Bool.false_ne_true

/-- Trimming takes away exactly the blanks around a text without blanks. -/
theorem trimBlanks_of_solid {left right : List Char}
    (left_blank : ∀ char ∈ left, isBlank char = true)
    (right_blank : ∀ char ∈ right, isBlank char = true)
    (solid : ∀ char ∈ chars, isBlank char = false) :
    trimBlanks (left ++ chars ++ right) = chars := by
  have right_gone : ∀ char ∈ right.reverse, isBlank char = true := by
    simpa only [List.mem_reverse] using right_blank
  have reversed_solid : ∀ char ∈ chars.reverse, isBlank char = false := by
    simpa only [List.mem_reverse] using solid
  rw [trimBlanks, List.append_assoc, List.dropWhile_append_of_pos left_blank, List.dropWhile_append,
    dropWhile_isBlank_of_solid solid]
  split
  · rename_i empty
    rw [List.isEmpty_iff.1 empty, List.dropWhile_eq_nil_iff.2 right_blank]
    rfl
  · rw [List.reverse_append, List.dropWhile_append_of_pos right_gone,
      dropWhile_isBlank_of_solid reversed_solid, List.reverse_reverse]

/-- The text has this first token: blanks in front of it, no blank in it, and a
blank or nothing behind it. -/
def HasFirstToken (chars token : List Char) : Prop :=
  ∃ blanks rest, chars = blanks ++ token ++ rest ∧ (∀ char ∈ blanks, isBlank char = true) ∧
    token ≠ [] ∧ (∀ char ∈ token, isBlank char = false) ∧
    ∀ char ∈ rest.head?, isBlank char = true

theorem hasFirstToken_iff :
    HasFirstToken chars token ↔
      token ≠ [] ∧ (chars.dropWhile isBlank).takeWhile (fun char => !isBlank char) = token := by
  constructor
  · rintro ⟨blanks, rest, rfl, blank, nonempty, solid, ended⟩
    refine ⟨nonempty, ?_⟩
    rw [List.append_assoc, List.dropWhile_append_of_pos blank]
    have kept : (token ++ rest).dropWhile isBlank = token ++ rest := by
      obtain ⟨char, token, rfl⟩ := List.exists_cons_of_ne_nil nonempty
      rw [List.cons_append, List.dropWhile_cons_of_neg]
      rw [solid char List.mem_cons_self]
      exact Bool.false_ne_true
    rw [kept, List.takeWhile_append_of_pos (by simpa using solid)]
    cases rest with
    | nil => rw [List.takeWhile_nil, List.append_nil]
    | cons char rest =>
        rw [List.takeWhile_cons_of_neg, List.append_nil]
        rw [ended char rfl]
        exact Bool.false_ne_true
  · rintro ⟨nonempty, rfl⟩
    refine ⟨chars.takeWhile isBlank, (chars.dropWhile isBlank).dropWhile fun char => !isBlank char,
      ?_, fun char member => List.mem_takeWhile_imp member, nonempty, ?_, ?_⟩
    · rw [List.append_assoc, List.takeWhile_append_dropWhile, List.takeWhile_append_dropWhile]
    · intro char member
      simpa using List.mem_takeWhile_imp member
    · intro char head_eq
      have stopped := List.head?_dropWhile_not (fun char => !isBlank char) (chars.dropWhile isBlank)
      rw [Option.mem_def.1 head_eq] at stopped
      simpa using stopped

end HackComputer.Text
