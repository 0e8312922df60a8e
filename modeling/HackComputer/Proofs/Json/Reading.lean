import HackComputer.Json.Reader

/-!
# Tokens of a value

`tokens` is the sequence of tokens of a value, as every layout writes it.  The reader
takes it from the place where a value is awaited to the place where that value is
complete, whatever is open around it.  It takes no other sequence to a value
(`ofTokens?_eq_some_iff`), because at every place the tokens that have been read can be
told from what is open and what has been read in it (`Reading.tokens_step`).
-/

namespace HackComputer.Json

mutual

/-- The tokens of a value. -/
def tokens : Json → List Token
  | .null => [.null]
  | .bool value => [.bool value]
  | .integer value => [.integer value]
  | .real => [.real]
  | .text contents => [.text contents]
  | .array [] => [.openArray, .closeArray]
  | .array (item :: items) => .openArray :: (tokens item ++ itemTokens items)
  | .object [] => [.openObject, .closeObject]
  | .object ((name, value) :: members) =>
    .openObject :: .text name :: .colon :: (tokens value ++ memberTokens members)

/-- The tokens of the remaining items of an array and its end. -/
def itemTokens : List Json → List Token
  | [] => [.closeArray]
  | item :: items => .comma :: (tokens item ++ itemTokens items)

/-- The tokens of the remaining members of an object and its end. -/
def memberTokens : List (Option String × Json) → List Token
  | [] => [.closeObject]
  | (name, value) :: members =>
    .comma :: .text name :: .colon :: (tokens value ++ memberTokens members)

end

namespace Reading

variable {frames : List Frame} {rest : List Token}

/-- A value that begins an array is read as any other value. -/
theorem foldlM_awaitItem (value : Json) :
    (value.tokens ++ rest).foldlM step (.awaitItem frames) =
      (value.tokens ++ rest).foldlM step (.awaitValue (.array [] :: frames)) := by
  cases value with
  | null | bool | integer | real | text => rfl
  | array items => cases items <;> rfl
  | object members => cases members <;> rfl

mutual

/-- The tokens of an awaited value complete it. -/
theorem foldlM_tokens (frames : List Frame) (rest : List Token) : ∀ value : Json,
    (value.tokens ++ rest).foldlM step (.awaitValue frames) =
      rest.foldlM step (.complete value frames)
  | .null => rfl
  | .bool _ => rfl
  | .integer _ => rfl
  | .real => rfl
  | .text _ => rfl
  | .array [] => rfl
  | .array (item :: items) => by
      rw [tokens, List.cons_append, List.append_assoc, List.foldlM_cons]
      change (item.tokens ++ (itemTokens items ++ rest)).foldlM step (.awaitItem frames) = _
      rw [foldlM_awaitItem, foldlM_tokens, foldlM_itemTokens]
      rfl
  | .object [] => rfl
  | .object ((name, value) :: members) => by
      rw [tokens, List.cons_append, List.cons_append, List.cons_append, List.append_assoc]
      change (value.tokens ++ (memberTokens members ++ rest)).foldlM step
        (.awaitValue (.object [] name :: frames)) = _
      rw [foldlM_tokens, foldlM_memberTokens]
      rfl

/-- The tokens of the remaining items complete an array. -/
theorem foldlM_itemTokens (frames : List Frame) (rest : List Token) (value : Json)
    (before : List Json) : ∀ items : List Json,
    (itemTokens items ++ rest).foldlM step (.complete value (.array before :: frames)) =
      rest.foldlM step (.complete (.array ((value :: before).reverse ++ items)) frames)
  | [] => by
      rw [List.append_nil]
      rfl
  | item :: items => by
      rw [itemTokens, List.cons_append, List.append_assoc]
      change (item.tokens ++ (itemTokens items ++ rest)).foldlM step
        (.awaitValue (.array (value :: before) :: frames)) = _
      rw [foldlM_tokens, foldlM_itemTokens, List.reverse_cons, List.append_assoc]
      rfl

/-- The tokens of the remaining members complete an object. -/
theorem foldlM_memberTokens (frames : List Frame) (rest : List Token) (value : Json)
    (name : Option String) (before : List (Option String × Json)) :
    ∀ members : List (Option String × Json),
    (memberTokens members ++ rest).foldlM step (.complete value (.object before name :: frames)) =
      rest.foldlM step (.complete (.object (((name, value) :: before).reverse ++ members)) frames)
  | [] => by
      rw [List.append_nil]
      rfl
  | (nextName, nextValue) :: members => by
      rw [memberTokens, List.cons_append, List.cons_append, List.cons_append, List.append_assoc]
      change (nextValue.tokens ++ (memberTokens members ++ rest)).foldlM step
        (.awaitValue (.object ((name, value) :: before) nextName :: frames)) = _
      rw [foldlM_tokens, foldlM_memberTokens, List.reverse_cons, List.append_assoc]
      rfl

end

end Reading

/-- A value is read from its tokens. -/
theorem ofTokens?_tokens (value : Json) : ofTokens? value.tokens = some value := by
  have complete := Reading.foldlM_tokens [] [] value
  rw [List.append_nil] at complete
  rw [ofTokens?, complete]
  rfl

/-! ## The tokens read so far -/

/-- The tokens of items, each with the comma behind it. -/
def listedItems (items : List Json) : List Token :=
  items.flatMap fun item => item.tokens ++ [.comma]

/-- The tokens of members, each with the comma behind it. -/
def listedMembers (members : List (Option String × Json)) : List Token :=
  members.flatMap fun member => .text member.1 :: .colon :: (member.2.tokens ++ [.comma])

theorem listedItems_cons (item : Json) (items : List Json) :
    listedItems (item :: items) = item.tokens ++ .comma :: listedItems items := by
  rw [listedItems, List.flatMap_cons, List.append_assoc]
  rfl

theorem listedMembers_cons (name : Option String) (value : Json)
    (members : List (Option String × Json)) :
    listedMembers ((name, value) :: members) =
      .text name :: .colon :: (value.tokens ++ .comma :: listedMembers members) := by
  rw [listedMembers, List.flatMap_cons, List.cons_append, List.cons_append, List.append_assoc]
  rfl

theorem listedItems_reverse_cons (item : Json) (items : List Json) :
    listedItems (item :: items).reverse =
      listedItems items.reverse ++ (item.tokens ++ [.comma]) := by
  rw [List.reverse_cons, listedItems, List.flatMap_append, List.flatMap_singleton]
  rfl

theorem listedMembers_reverse_cons (name : Option String) (value : Json)
    (members : List (Option String × Json)) :
    listedMembers ((name, value) :: members).reverse =
      listedMembers members.reverse ++ .text name :: .colon :: (value.tokens ++ [.comma]) := by
  rw [List.reverse_cons, listedMembers, List.flatMap_append, List.flatMap_singleton]
  rfl

theorem itemTokens_append (items : List Json) (last : Json) :
    itemTokens (items ++ [last]) =
      .comma :: (listedItems items ++ (last.tokens ++ [.closeArray])) := by
  induction items with
  | nil => rfl
  | cons item items inductionHypothesis =>
      rw [List.cons_append, itemTokens, inductionHypothesis, listedItems_cons, List.append_assoc]
      rfl

theorem tokens_array_append (items : List Json) (last : Json) :
    (Json.array (items ++ [last])).tokens =
      .openArray :: (listedItems items ++ (last.tokens ++ [.closeArray])) := by
  cases items with
  | nil => rfl
  | cons item items =>
      rw [List.cons_append, tokens, itemTokens_append, listedItems_cons, List.append_assoc]
      rfl

theorem memberTokens_append (members : List (Option String × Json)) (name : Option String)
    (last : Json) :
    memberTokens (members ++ [(name, last)]) =
      .comma ::
        (listedMembers members ++ .text name :: .colon :: (last.tokens ++ [.closeObject])) := by
  induction members with
  | nil => rfl
  | cons member members inductionHypothesis =>
      rw [List.cons_append, memberTokens, inductionHypothesis, listedMembers_cons,
        List.cons_append, List.cons_append, List.append_assoc]
      rfl

theorem tokens_object_append (members : List (Option String × Json)) (name : Option String)
    (last : Json) :
    (Json.object (members ++ [(name, last)])).tokens =
      .openObject ::
        (listedMembers members ++ .text name :: .colon :: (last.tokens ++ [.closeObject])) := by
  cases members with
  | nil => rfl
  | cons member members =>
      rw [List.cons_append, tokens, memberTokens_append, listedMembers_cons, List.cons_append,
        List.cons_append, List.append_assoc]
      rfl

/-- The tokens from the start of an array or object to the value being read. -/
def Frame.tokens : Frame → List Token
  | .array items => .openArray :: listedItems items.reverse
  | .object members name => .openObject :: (listedMembers members.reverse ++ [.text name, .colon])

/-- The tokens of all that has been opened, the innermost last. -/
def openTokens : List Frame → List Token
  | [] => []
  | frame :: outer => openTokens outer ++ frame.tokens

/-- The tokens that have been read. -/
def Reading.tokens : Reading → List Token
  | .awaitValue frames => openTokens frames
  | .awaitItem frames => openTokens frames ++ [.openArray]
  | .awaitFirstName frames => openTokens frames ++ [.openObject]
  | .awaitName members frames =>
    openTokens frames ++ .openObject :: listedMembers members.reverse
  | .awaitColon members name frames =>
    openTokens frames ++ .openObject :: (listedMembers members.reverse ++ [.text name])
  | .complete value frames => openTokens frames ++ value.tokens

namespace Reading

theorem tokens_beginValue {frames : List Frame} {token : Token} {next : Reading}
    (begun : beginValue frames token = some next) : next.tokens = openTokens frames ++ [token] := by
  cases token <;> cases begun <;> rfl

/-- Each token that is taken is the next of the tokens that have been read. -/
theorem tokens_step {reading next : Reading} {token : Token}
    (taken : step reading token = some next) :
    next.tokens = reading.tokens ++ [token] := by
  fun_cases step reading token with
  | case1 frames => exact tokens_beginValue taken
  | case2 frames =>
      cases taken
      exact List.append_cons _ _ _
  | case3 frames _ not_end =>
      rw [step] at taken
      · exact tokens_beginValue taken
      · exact not_end
  | case4 frames =>
      cases taken
      exact List.append_cons _ _ _
  | case5 frames name =>
      cases taken
      exact List.append_cons _ _ _
  | case6 members frames name =>
      cases taken
      rw [Reading.tokens, Reading.tokens, List.append_assoc]
      rfl
  | case7 members name frames =>
      cases taken
      rw [Reading.tokens, Reading.tokens, openTokens, Frame.tokens, List.append_assoc,
        List.cons_append, List.append_assoc]
      rfl
  | case8 value items frames =>
      cases taken
      rw [Reading.tokens, Reading.tokens, openTokens, openTokens, Frame.tokens, Frame.tokens,
        listedItems_reverse_cons, List.append_assoc, List.append_assoc, List.cons_append]
  | case9 value items frames =>
      cases taken
      rw [Reading.tokens, Reading.tokens, openTokens, Frame.tokens, List.reverse_cons,
        tokens_array_append, List.append_assoc, List.append_assoc, List.cons_append]
  | case10 value members name frames =>
      cases taken
      rw [Reading.tokens, Reading.tokens, openTokens, Frame.tokens, listedMembers_reverse_cons]
      simp only [List.append_assoc, List.cons_append, List.nil_append]
  | case11 value members name frames =>
      cases taken
      rw [Reading.tokens, Reading.tokens, openTokens, Frame.tokens, List.reverse_cons,
        tokens_object_append]
      simp only [List.append_assoc, List.cons_append, List.nil_append]
  | case12 =>
      rw [step] at taken
      · contradiction
      all_goals assumption

theorem tokens_foldlM {reading last : Reading} {tokens : List Token}
    (run : tokens.foldlM step reading = some last) : last.tokens = reading.tokens ++ tokens := by
  induction tokens generalizing reading with
  | nil =>
      cases run
      exact (List.append_nil _).symm
  | cons token tokens inductionHypothesis =>
      obtain ⟨next, taken, run⟩ := Option.bind_eq_some_iff.1 run
      rw [inductionHypothesis run, tokens_step taken, List.append_assoc]
      rfl

end Reading

/-- A value is read from its tokens and from no others. -/
theorem ofTokens?_eq_some_iff {tokens : List Token} {value : Json} :
    ofTokens? tokens = some value ↔ tokens = value.tokens := by
  constructor
  · intro read
    obtain ⟨last, run, result⟩ := Option.bind_eq_some_iff.1 read
    have tokens_eq := Reading.tokens_foldlM run
    match last with
    | .complete other [] =>
        cases result
        exact tokens_eq.symm
    | .complete _ (_ :: _) | .awaitValue _ | .awaitItem _ | .awaitFirstName _ | .awaitName _ _
    | .awaitColon _ _ _ => contradiction
  · rintro rfl
    exact ofTokens?_tokens value

end HackComputer.Json
