import HackComputer.Machine.ConfigFile
import HackComputer.Proofs.Json.Recognition
import Mathlib.Data.List.Perm.Basic

/-!
# What a configuration file says

The configuration in a file depends on two members of its object, provided that every name
in the object is a string.  `Json.Gives` says which value the members of an object give to
an optional field; it does not look at the order of the members nor at those with other
names.  A name with half of a surrogate pair is no string (`Json.Named`), and then the file
is refused.  That every text of an object is read as its members is the subject of the
reader of JSON text.
-/

namespace HackComputer

namespace Json

/-- All names of an object are strings: none holds half of a surrogate pair. -/
def Named (members : List (Option String × Json)) : Prop :=
  ∀ member ∈ members, member.1.isSome = true

/-! ## Optional fields -/

section Fields

variable {α : Type} {members : List (Option String × Json)} {name : String}
  {Means : Json → α → Prop} {default value : α}

/-- The members give this value to a field: at most one of them has its name, and the field
has the value that this one means, or the default if there is none. -/
structure Gives (members : List (Option String × Json)) (name : String)
    (Means : Json → α → Prop) (default value : α) : Prop where
  once : (members.map Prod.fst).count (some name) ≤ 1
  given : ∀ json, (some name, json) ∈ members → Means json value
  absent : some name ∉ members.map Prod.fst → value = default

/-- At most one of the members has the name of a field, and its value has the field's type. -/
structure Readable (members : List (Option String × Json)) (name : String)
    (Means : Json → α → Prop) : Prop where
  once : (members.map Prod.fst).count (some name) ≤ 1
  typed : ∀ json, (some name, json) ∈ members → ∃ value, Means json value

theorem Gives.readable (gives : Gives members name Means default value) :
    Readable members name Means :=
  ⟨gives.once, fun json member => ⟨value, gives.given json member⟩⟩

theorem Gives.perm {members' : List (Option String × Json)}
    (gives : Gives members name Means default value) (same : members.Perm members') :
    Gives members' name Means default value where
  once := (same.map Prod.fst).count_eq (some name) ▸ gives.once
  given json member := gives.given json (same.mem_iff.2 member)
  absent missing := gives.absent fun present => missing ((same.map Prod.fst).mem_iff.1 present)

theorem eq_of_mem_of_count_le_one {json json' : Json}
    (once : (members.map Prod.fst).count (some name) ≤ 1)
    (member : (some name, json) ∈ members) (member' : (some name, json') ∈ members) :
    json = json' := by
  induction members with
  | nil => contradiction
  | cons first members inductionHypothesis =>
      have count_pos {json : Json} (behind : (some name, json) ∈ members) :
          0 < (members.map Prod.fst).count (some name) :=
        List.count_pos_iff.2 (List.mem_map.2 ⟨_, behind, rfl⟩)
      rw [List.map_cons, List.count_cons] at once
      rcases List.mem_cons.1 member with rfl | behind <;>
        rcases List.mem_cons.1 member' with same | behind'
      · exact (Prod.mk.inj same).2.symm
      · rw [if_pos (beq_self_eq_true _)] at once
        have := count_pos behind'
        omega
      · subst same
        rw [if_pos (beq_self_eq_true _)] at once
        have := count_pos behind
        omega
      · exact inductionHypothesis (by omega) behind behind'

/-- A field that can be read has a value. -/
theorem Readable.exists_gives (readable : Readable members name Means) (default : α) :
    ∃ value, Gives members name Means default value := by
  obtain ⟨once, typed⟩ := readable
  by_cases present : some name ∈ members.map Prod.fst
  · obtain ⟨⟨first, json⟩, member, first_eq⟩ := List.mem_map.1 present
    obtain rfl : first = some name := first_eq
    obtain ⟨value, means⟩ := typed json member
    refine ⟨value, once, fun other other_member => ?_, fun missing => absurd present missing⟩
    exact eq_of_mem_of_count_le_one once member other_member ▸ means
  · refine ⟨default, once, fun json member => ?_, fun _ => rfl⟩
    exact absurd (List.mem_map.2 ⟨_, member, rfl⟩) present

section Filter

variable (keeps : Option String × Json → Bool) (kept : ∀ json, keeps (some name, json) = true)

include kept

theorem mem_filter_iff_of_kept {json : Json} :
    (some name, json) ∈ members.filter keeps ↔ (some name, json) ∈ members :=
  List.mem_filter.trans (and_iff_left (kept json))

theorem count_filter_of_kept :
    ((members.filter keeps).map Prod.fst).count (some name) =
      (members.map Prod.fst).count (some name) := by
  rw [List.count_eq_countP, List.countP_map, List.countP_filter, List.count_eq_countP,
    List.countP_map]
  refine List.countP_congr fun (first, json) _ => ?_
  simp only [Function.comp_apply, Bool.and_eq_true, beq_iff_eq, and_iff_left_iff_imp]
  rintro rfl
  exact kept json

/-- Members with other names give nothing to a field. -/
theorem gives_filter_iff :
    Gives (members.filter keeps) name Means default value ↔
      Gives members name Means default value := by
  have missing_iff :
      some name ∉ (members.filter keeps).map Prod.fst ↔ some name ∉ members.map Prod.fst := by
    rw [← List.count_eq_zero, count_filter_of_kept keeps kept, List.count_eq_zero]
  constructor
  · rintro ⟨once, given, absent⟩
    exact ⟨count_filter_of_kept keeps kept ▸ once,
      fun json member => given json ((mem_filter_iff_of_kept keeps kept).2 member),
      fun missing => absent (missing_iff.2 missing)⟩
  · rintro ⟨once, given, absent⟩
    exact ⟨(count_filter_of_kept keeps kept).symm ▸ once,
      fun json member => given json ((mem_filter_iff_of_kept keeps kept).1 member),
      fun missing => absent (missing_iff.1 missing)⟩

end Filter

variable [JsonForm α]

/-- Reads a field from the value of the member with its name, if there is one. -/
def given? (default : α) : Option Json → Option α
  | none => some default
  | some json => ofJson? json

/-- The reader of an optional field finds the value that the members give to it. -/
theorem uniqueMember?_bind_given?_eq_some_iff
    (means_iff : ∀ json value, ofJson? json = some value ↔ Means json value) :
    (uniqueMember? members name >>= given? default) = some value ↔
      Gives members name Means default value := by
  rw [← gives_filter_iff (fun member => member.1 == some name)
    fun _ => beq_self_eq_true (some name), uniqueMember?]
  have named : ∀ member ∈ members.filter fun member => member.1 == some name,
      member.1 = some name :=
    fun member filtered => beq_iff_eq.1 (List.mem_filter.1 filtered).2
  generalize (members.filter fun member => member.1 == some name) = candidates at named ⊢
  match candidates with
  | [] =>
      change some default = some value ↔ _
      rw [Option.some_inj]
      refine ⟨?_, fun gives => (gives.absent List.not_mem_nil).symm⟩
      rintro rfl
      exact ⟨Nat.zero_le 1, fun _ member => (nomatch member), fun _ => rfl⟩
  | [(first, json)] =>
      obtain rfl : first = some name := named (first, json) (List.mem_singleton_self _)
      change ofJson? json = some value ↔ _
      rw [means_iff]
      refine ⟨fun means => ⟨?_, ?_, ?_⟩, fun gives => gives.given json (List.mem_singleton_self _)⟩
      · exact List.count_le_length
      · intro other member
        cases List.mem_singleton.1 member
        exact means
      · exact fun missing => absurd (List.mem_singleton_self (some name)) missing
  | first :: second :: rest =>
      have first_named := named first List.mem_cons_self
      have second_named := named second (List.mem_cons_of_mem first List.mem_cons_self)
      refine ⟨fun refused => (nomatch refused), fun gives => ?_⟩
      have once := gives.once
      simp only [List.map_cons, first_named, second_named, List.count_cons_self] at once
      omega

end Fields

theorem unitCase?_eq_some_iff {json : Json} {name : String} :
    json.unitCase? = some name ↔ json = ofString name ∨ json = record [(name, .null)] := by
  constructor
  · rw [Json.unitCase?.eq_def]
    match json with
    | .text (some contents) =>
        rintro ⟨⟩
        exact .inl rfl
    | .object [(some first, value)] =>
        cases value <;> rintro ⟨⟩
        exact .inr rfl
    | .null | .bool _ | .integer _ | .real | .text none | .array _ | .object []
    | .object [(none, _)] => rintro ⟨⟩
    | .object (first :: second :: rest) =>
        rw [Json.case?]
        · rintro ⟨⟩
        all_goals simp
  · rintro (rfl | rfl) <;> rfl

end Json

namespace Config

open Json (Gives Named Readable given? ofString uniqueMember?)

/-! ## The fields of a configuration -/

/-- The name of a policy in a configuration. -/
def policyName : UnmappedPolicy → String
  | .ignore => "ignore"
  | .fault => "fault"

/-- The value names this policy: by a string, or as the only member of an object, with `null`. -/
inductive NamesPolicy : Json → UnmappedPolicy → Prop
  | string (policy : UnmappedPolicy) : NamesPolicy (ofString (policyName policy)) policy
  | member (policy : UnmappedPolicy) :
      NamesPolicy (Json.record [(policyName policy, .null)]) policy

/-- The value is this Boolean. -/
def IsSwitch (json : Json) (value : Bool) : Prop :=
  json = .bool value

theorem ofJson?_eq_some_iff_namesPolicy (json : Json) (policy : UnmappedPolicy) :
    ofJson? json = some policy ↔ NamesPolicy json policy := by
  constructor
  · intro read
    have named : json.unitCase? = some (policyName policy) := by
      simp only [ofJson?] at read
      split at read
      · rename_i ignored
        cases read
        exact ignored
      · rename_i faulted
        cases read
        exact faulted
      · contradiction
    rcases Json.unitCase?_eq_some_iff.1 named with rfl | rfl
    · exact .string policy
    · exact .member policy
  · rintro (_ | _) <;> cases policy <;> rfl

theorem ofJson?_eq_some_iff_isSwitch (json : Json) (value : Bool) :
    ofJson? json = some value ↔ IsSwitch json value := by
  constructor
  · cases json <;> rintro ⟨⟩
    rfl
  · rintro rfl
    rfl

/-- The members of an object say that the configuration is this one. -/
structure SaidBy (members : List (Option String × Json)) (config : Config) : Prop where
  unmapped : Gives members "unmapped" NamesPolicy .ignore config.unmapped
  haltDetection : Gives members "halt_detection" IsSwitch true config.haltDetection

/-- Has the member the name of a field? -/
def isField (member : Option String × Json) : Bool :=
  member.1 == some "unmapped" || member.1 == some "halt_detection"

variable {members members' : List (Option String × Json)} {config : Config}

theorem SaidBy.of_perm_fields (said : SaidBy members config)
    (same : (members.filter isField).Perm (members'.filter isField)) : SaidBy members' config := by
  have unmapped_kept : ∀ json, isField (some "unmapped", json) = true := fun _ => rfl
  have haltDetection_kept : ∀ json, isField (some "halt_detection", json) = true := fun _ => rfl
  obtain ⟨unmapped, haltDetection⟩ := said
  rw [← Json.gives_filter_iff isField unmapped_kept] at unmapped
  rw [← Json.gives_filter_iff isField haltDetection_kept] at haltDetection
  exact ⟨(Json.gives_filter_iff isField unmapped_kept).1 (unmapped.perm same),
    (Json.gives_filter_iff isField haltDetection_kept).1 (haltDetection.perm same)⟩

/-- A configuration is read from the two members with the names of its fields. -/
theorem ofJson?_object_of_named (named : Named members) :
    (ofJson? (Json.object members) : Option Config) = do
      let unmapped ← uniqueMember? members "unmapped" >>= given? .ignore
      let haltDetection ← uniqueMember? members "halt_detection" >>= given? true
      return { unmapped, haltDetection } := by
  change (Json.object members).fields? ["unmapped", "halt_detection"] >>= _ = _
  rw [Json.fields?, if_pos (List.all_eq_true.2 named)]
  simp only [List.mapM_cons, List.mapM_nil]
  cases uniqueMember? members "unmapped" with
  | none => rfl
  | some unmapped =>
      cases uniqueMember? members "halt_detection" with
      | none =>
          change none = given? UnmappedPolicy.ignore unmapped >>= fun _ => none
          rw [Option.bind_eq_bind, Option.bind_fun_none]
      | some haltDetection => cases unmapped <;> cases haltDetection <;> rfl

/-- No configuration is read from an object with a name that is no string. -/
theorem ofJson?_object_of_not_named (unnamed : ¬Named members) :
    (ofJson? (Json.object members) : Option Config) = none := by
  change (Json.object members).fields? ["unmapped", "halt_detection"] >>= _ = _
  rw [Json.fields?, if_neg fun all => unnamed (List.all_eq_true.1 all)]
  rfl

theorem ofJson?_object_eq_some_iff :
    ofJson? (Json.object members) = some config ↔ Named members ∧ SaidBy members config := by
  have unmapped_iff :
      (uniqueMember? members "unmapped" >>= given? UnmappedPolicy.ignore) =
        some config.unmapped ↔ _ :=
    Json.uniqueMember?_bind_given?_eq_some_iff ofJson?_eq_some_iff_namesPolicy
  have haltDetection_iff :
      (uniqueMember? members "halt_detection" >>= given? true) = some config.haltDetection ↔ _ :=
    Json.uniqueMember?_bind_given?_eq_some_iff ofJson?_eq_some_iff_isSwitch
  by_cases named : Named members
  · rw [ofJson?_object_of_named named, and_iff_right named]
    constructor
    · intro read
      obtain ⟨unmapped, unmapped_eq, read⟩ := Option.bind_eq_some_iff.1 read
      obtain ⟨haltDetection, haltDetection_eq, config_eq⟩ := Option.bind_eq_some_iff.1 read
      cases config_eq
      exact ⟨unmapped_iff.1 unmapped_eq, haltDetection_iff.1 haltDetection_eq⟩
    · rintro ⟨unmapped, haltDetection⟩
      refine Option.bind_eq_some_iff.2 ⟨config.unmapped, unmapped_iff.2 unmapped, ?_⟩
      exact Option.bind_eq_some_iff.2
        ⟨config.haltDetection, haltDetection_iff.2 haltDetection, rfl⟩
  · rw [ofJson?_object_of_not_named named]
    exact iff_of_false (Option.some_ne_none config).symm fun said => named said.1

/-! ## Files -/

variable {text text' : String}

theorem ofFile_eq_ok_iff_saidBy (spells : (Json.object members).Spells text) :
    ofFile text = .ok config ↔ Named members ∧ SaidBy members config := by
  rw [← ofJson?_object_eq_some_iff, ofFile, JsonForm.ofText?, Json.ofText?_of_spells spells,
    Option.bind_eq_bind, Option.bind_some]
  cases (ofJson? (Json.object members) : Option Config) with
  | none => simp
  | some other => simp

theorem exists_ofFile_eq_ok_iff (spells : (Json.object members).Spells text) :
    (∃ config, ofFile text = .ok config) ↔
      Named members ∧ Readable members "unmapped" NamesPolicy ∧
        Readable members "halt_detection" IsSwitch := by
  constructor
  · rintro ⟨config, read⟩
    obtain ⟨named, unmapped, haltDetection⟩ := (ofFile_eq_ok_iff_saidBy spells).1 read
    exact ⟨named, unmapped.readable, haltDetection.readable⟩
  · rintro ⟨named, unmapped, haltDetection⟩
    obtain ⟨policy, unmapped⟩ := unmapped.exists_gives UnmappedPolicy.ignore
    obtain ⟨switch, haltDetection⟩ := haltDetection.exists_gives true
    exact ⟨⟨policy, switch⟩, (ofFile_eq_ok_iff_saidBy spells).2 ⟨named, unmapped, haltDetection⟩⟩

theorem eq_error_malformed_of_ne_ok (refused : ∀ config, ofFile text ≠ .ok config) :
    ofFile text = .error .malformed := by
  rw [ofFile]
  cases read : (JsonForm.ofText? text : Option Config) with
  | none => rfl
  | some config =>
      refine absurd ?_ (refused config)
      rw [ofFile, read]

theorem ofFile_of_not_named (spells : (Json.object members).Spells text)
    (unnamed : ¬Named members) : ofFile text = .error .malformed :=
  eq_error_malformed_of_ne_ok fun _ read => unnamed ((ofFile_eq_ok_iff_saidBy spells).1 read).1

theorem ofFile_eq_of_perm_fields (spells : (Json.object members).Spells text)
    (spells' : (Json.object members').Spells text') (named_iff : Named members ↔ Named members')
    (same : (members.filter isField).Perm (members'.filter isField)) :
    ofFile text = ofFile text' := by
  by_cases accepted : ∃ config, ofFile text = .ok config
  · obtain ⟨config, read⟩ := accepted
    obtain ⟨named, said⟩ := (ofFile_eq_ok_iff_saidBy spells).1 read
    rw [read, (ofFile_eq_ok_iff_saidBy spells').2 ⟨named_iff.1 named, said.of_perm_fields same⟩]
  · have refused : ∀ config, ofFile text ≠ .ok config := fun config read => accepted ⟨config, read⟩
    have refused' : ∀ config, ofFile text' ≠ .ok config := by
      intro config read
      obtain ⟨named, said⟩ := (ofFile_eq_ok_iff_saidBy spells').1 read
      exact refused config ((ofFile_eq_ok_iff_saidBy spells).2
        ⟨named_iff.2 named, said.of_perm_fields same.symm⟩)
    rw [eq_error_malformed_of_ne_ok refused, eq_error_malformed_of_ne_ok refused']

/-- An object whose only name is half of a surrogate pair. -/
def unnamedMembers : List (Option String × Json) :=
  [(none, .integer 0)]

/-- A text of this object. -/
def unnamedText : String :=
  "\x7b\"\\ud800\":0\x7d"

theorem spells_unnamedText : (Json.object unnamedMembers).Spells unnamedText := by
  refine Json.ofText?_eq_some_iff_spells.1 ?_
  rfl

theorem not_named_unnamedMembers : ¬Named unnamedMembers :=
  fun named => absurd (named _ List.mem_cons_self) Bool.false_ne_true

/-- It is not enough that the members with the names of the two fields are in order.  Here
there are none, as in the empty object, but the name of another member is no string. -/
theorem unnamed_member_is_refused :
    (Json.object unnamedMembers).Spells unnamedText ∧ (Json.object []).Spells "\x7b\x7d" ∧
      (Readable unnamedMembers "unmapped" NamesPolicy ∧
        Readable unnamedMembers "halt_detection" IsSwitch) ∧
      unnamedMembers.filter isField = [] ∧
      ofFile "\x7b\x7d" = .ok {} ∧ ofFile unnamedText = .error .malformed := by
  have spells_empty : (Json.object []).Spells "\x7b\x7d" := by
    refine Json.ofText?_eq_some_iff_spells.1 ?_
    rfl
  refine ⟨spells_unnamedText, spells_empty, ⟨⟨by decide, ?_⟩, ⟨by decide, ?_⟩⟩, rfl, rfl,
    ofFile_of_not_named spells_unnamedText not_named_unnamedMembers⟩
  · intro json member
    simp [unnamedMembers] at member
  · intro json member
    simp [unnamedMembers] at member

/-- A text of an object all of whose names are strings is read as exactly the configuration
that its members say: each of the two fields has the value of the only member with its name,
and its default if there is none.  There is one unless a name of a field occurs twice or with
a value of another type.  Members in another order, and members with other names, make no
difference, whatever their values are; nor do white space and the spelling of names and
values.  An object with a name that is no string is refused. -/
theorem file_is_read_by_its_two_fields :
    (∀ (members : List (Option String × Json)) (text : String),
      (Json.object members).Spells text →
      (∀ config, ofFile text = .ok config ↔ Named members ∧ SaidBy members config) ∧
      ((∃ config, ofFile text = .ok config) ↔
        Named members ∧ Readable members "unmapped" NamesPolicy ∧
          Readable members "halt_detection" IsSwitch) ∧
      (¬Named members → ofFile text = .error .malformed)) ∧
    ∀ (members members' : List (Option String × Json)) (text text' : String),
      (Json.object members).Spells text → (Json.object members').Spells text' →
        (Named members ↔ Named members') →
        (members.filter isField).Perm (members'.filter isField) → ofFile text = ofFile text' := by
  constructor
  · intro members text spells
    exact ⟨fun config => ofFile_eq_ok_iff_saidBy spells, exists_ofFile_eq_ok_iff spells,
      ofFile_of_not_named spells⟩
  · intro members members' text text' spells spells' named_iff same
    exact ofFile_eq_of_perm_fields spells spells' named_iff same

/-- A member that is passed over, and a field. -/
def spacedMembers : List (Option String × Json) :=
  [(some "x", .array [.real]), (some "unmapped", ofString "fault")]

/-- A text of these members, with white space and with an escape in the name of the field. -/
def spacedText : String :=
  "\x7b \"x\" : [0.5],\n\"unm\\u0061pped\" : \"fault\" \x7d"

/-- The text of the field alone. -/
def fieldText : String :=
  "\x7b\"unmapped\":\"fault\"\x7d"

/-- The configuration is read from the spaced text, and from what is written for its field;
and with the name that is no string nothing is. -/
theorem spacedText_is_read_by_its_field :
    (Json.object spacedMembers).Spells spacedText ∧
      (Json.object (spacedMembers.filter isField)).Spells fieldText ∧
      (Named spacedMembers ∧ Named (spacedMembers.filter isField)) ∧
      (spacedMembers.filter isField).Perm ((spacedMembers.filter isField).filter isField) ∧
      ofFile spacedText = .ok { unmapped := .fault } ∧ ofFile spacedText = ofFile fieldText ∧
      (Json.object unnamedMembers).Spells unnamedText ∧ ¬Named unnamedMembers ∧
      ofFile unnamedText = .error .malformed := by
  have spells : (Json.object spacedMembers).Spells spacedText := by
    refine Json.ofText?_eq_some_iff_spells.1 ?_
    rfl
  have spells_field : (Json.object (spacedMembers.filter isField)).Spells fieldText := by
    refine Json.ofText?_eq_some_iff_spells.1 ?_
    rfl
  have named : Named spacedMembers := by
    simp [Named, spacedMembers]
  have named_field : Named (spacedMembers.filter isField) := fun member filtered =>
    named member (List.mem_of_mem_filter filtered)
  obtain ⟨read, same⟩ := file_is_read_by_its_two_fields
  obtain ⟨read_iff, -, -⟩ := read spacedMembers spacedText spells
  obtain ⟨-, -, refused⟩ := read unnamedMembers unnamedText spells_unnamedText
  have unmapped : Gives spacedMembers "unmapped" NamesPolicy .ignore .fault := by
    refine ⟨by decide, fun json member => ?_, fun missing => absurd ?_ missing⟩
    · obtain rfl : json = ofString "fault" := by simpa [spacedMembers] using member
      exact .string .fault
    · exact List.mem_cons_of_mem _ List.mem_cons_self
  have haltDetection : Gives spacedMembers "halt_detection" IsSwitch true true := by
    refine ⟨by decide, fun json member => ?_, fun _ => rfl⟩
    simp [spacedMembers] at member
  have same_fields : (spacedMembers.filter isField).Perm
      ((spacedMembers.filter isField).filter isField) := .refl _
  exact ⟨spells, spells_field, ⟨named, named_field⟩, same_fields,
    (read_iff _).2 ⟨named, unmapped, haltDetection⟩,
    same _ _ _ _ spells spells_field (iff_of_true named named_field) same_fields,
    spells_unnamedText, not_named_unnamedMembers, refused not_named_unnamedMembers⟩

end Config

end HackComputer
