import HackComputer.Json.Form
import HackComputer.Proofs.Json.Writing
import Mathlib.Data.List.Nodup

/-!
# Lawful JSON forms

A JSON form is lawful if every value is read from the value that is written for it.  As
every JSON value is read from its text, the texts of a lawful form lose nothing.  What is
written for a structure or a case is read by the same few lemmas for every type.
-/

namespace HackComputer

/-- A type whose values are read from what is written for them. -/
class LawfulJsonForm (α : Type) [JsonForm α] : Prop where
  ofJson?_toJson : ∀ value : α, ofJson? (toJson value) = some value

export LawfulJsonForm (ofJson?_toJson)

attribute [simp] LawfulJsonForm.ofJson?_toJson

namespace JsonForm

variable {α : Type} [JsonForm α] [LawfulJsonForm α]

/-- A value is read from its text. -/
theorem ofText?_text (layout : Json.Layout) (value : α) :
    ofText? (text layout value) = some value := by
  rw [ofText?, text, Json.ofText?_render]
  exact ofJson?_toJson value

/-- Different values have different texts. -/
theorem text_injective (layout : Json.Layout) :
    Function.Injective (text layout : α → String) := by
  intro first second same
  have read := ofText?_text layout first
  rw [same, ofText?_text] at read
  exact (Option.some.inj read).symm

/-- Every value is read from its text, and different values have different texts. -/
structure FaithfulText (α : Type) [JsonForm α] (layout : Json.Layout) : Prop where
  read : ∀ value : α, ofText? (text layout value) = some value
  injective : Function.Injective (text layout : α → String)

/-- The texts of a lawful form lose nothing. -/
theorem faithfulText (α : Type) [JsonForm α] [LawfulJsonForm α] (layout : Json.Layout) :
    FaithfulText α layout :=
  ⟨ofText?_text layout, text_injective layout⟩

end JsonForm

namespace Json

/-! ## Structures -/

section Structures

variable {members : List (String × Json)}

theorem filter_eq_singleton (nodup : (members.map Prod.fst).Nodup) {name : String} {value : Json}
    (member : (name, value) ∈ members) :
    (members.filter fun member => member.1 == name) = [(name, value)] := by
  induction members with
  | nil => contradiction
  | cons first members inductionHypothesis =>
      obtain ⟨absent, nodup⟩ := List.nodup_cons.1 nodup
      rcases List.mem_cons.1 member with rfl | member
      · rw [List.filter_cons, if_pos (beq_self_eq_true name), List.filter_eq_nil_iff.2]
        intro other other_mem same
        exact absent (List.mem_map.2 ⟨other, other_mem, beq_iff_eq.1 same⟩)
      · rw [List.filter_cons_of_neg, inductionHypothesis nodup member]
        intro same
        exact absent (List.mem_map.2 ⟨_, member, (beq_iff_eq.1 same).symm⟩)

theorem uniqueMember?_record (nodup : (members.map Prod.fst).Nodup) {name : String} {value : Json}
    (member : (name, value) ∈ members) :
    uniqueMember? (members.map fun member => (some member.1, member.2)) name =
      some (some value) := by
  have filtered := filter_eq_singleton nodup member
  simp only [uniqueMember?, List.filter_map, Function.comp_def, Option.some_beq_some, filtered,
    List.map_cons, List.map_nil]

theorem mapM_uniqueMember? (nodup : (members.map Prod.fst).Nodup) {part : List (String × Json)}
    (part_subset : part ⊆ members) :
    (part.map Prod.fst).mapM
        (uniqueMember? (members.map fun member => (some member.1, member.2))) =
      some (part.map fun member => some member.2) := by
  induction part with
  | nil => rfl
  | cons member rest inductionHypothesis =>
      obtain ⟨member_mem, rest_subset⟩ := List.cons_subset.1 part_subset
      rw [List.map_cons, List.mapM_cons, uniqueMember?_record nodup member_mem,
        inductionHypothesis rest_subset]
      rfl

/-- The fields of a structure are found in the object that is written for it. -/
theorem fields?_record (nodup : (members.map Prod.fst).Nodup) :
    (record members).fields? (members.map Prod.fst) = some members := by
  have named : ((members.map fun member => (some member.1, member.2)).all
      fun member => member.1.isSome) = true := by
    simp
  rw [record, fields?, if_pos named, mapM_uniqueMember? nodup (List.Subset.refl members),
    Option.bind_eq_bind, Option.bind_some, List.zip_map', List.filterMap_map]
  exact congrArg some List.filterMap_some

/-- Reading a structure begins with the fields that are written for it. -/
theorem fields?_record_bind {Result : Type} {names : List String}
    {read : List (String × Json) → Option Result} (names_eq : members.map Prod.fst = names)
    (nodup : names.Nodup) : ((record members).fields? names >>= read) = read members := by
  subst names_eq
  rw [fields?_record nodup, Option.bind_eq_bind, Option.bind_some]

variable {α : Type} [JsonForm α]

/-- A field is looked for among the fields in their order. -/
theorem field?_cons (name other : String) (json : Json) :
    (field? ((other, json) :: members) name : Option α) =
      if name == other then ofJson? json else field? members name := by
  simp only [field?, List.lookup_cons]
  cases name == other <;> rfl

theorem fieldD?_cons (name other : String) (json : Json) (default : α) :
    fieldD? ((other, json) :: members) name default =
      if name == other then ofJson? json else fieldD? members name default := by
  simp only [fieldD?, List.lookup_cons]
  cases name == other <;> rfl

end Structures

end Json

/-! ## Forms of basic types -/

instance : LawfulJsonForm Bool where
  ofJson?_toJson _ := rfl

instance {width : Nat} : LawfulJsonForm (BitVec width) where
  ofJson?_toJson word := by
    have fits : 0 ≤ (word.toNat : Int) ∧ (word.toNat : Int).toNat < Nat.pow 2 width :=
      ⟨Int.natCast_nonneg _, word.isLt⟩
    change (if 0 ≤ (word.toNat : Int) ∧ (word.toNat : Int).toNat < Nat.pow 2 width then
      some (BitVec.ofNat width (word.toNat : Int).toNat) else none) = some word
    rw [if_pos fits, Int.toNat_natCast, BitVec.ofNat_toNat, BitVec.setWidth_eq]

instance {α : Type} [JsonForm α] [LawfulJsonForm α] : LawfulJsonForm (List α) where
  ofJson?_toJson values := by
    change (values.map toJson).mapM ofJson? = some values
    rw [List.mapM_map, show ofJson? ∘ (toJson : α → Json) = some from funext ofJson?_toJson]
    exact List.mapM_pure.trans (congrArg some (List.map_id values))

end HackComputer
