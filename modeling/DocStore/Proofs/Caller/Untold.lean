import DocStore.Proofs.Caller.Plain
/-!
# Values that cannot be told

A message shows a value of a caller by its JSON text, or by its text form where there is no JSON
text.  Neither form exists of every value.  A value has no JSON form exactly when it is a reference
or a whole number of the unbounded kind, or holds one where its JSON form looks (`Unwritable`); it
has no text form exactly when it is an object that neither inherits nor decides one, or an array
that holds such an object or a mark (`Textless`).  So a value cannot be told at all exactly when
both is the case (`describe?_eq_none_iff`).

Both forms follow references.  The containers around a part are all being written when a form comes
to the part, each further out than the part (`Inside`), so a reference leads to one of them and
nothing else does.
-/

set_option autoImplicit false

namespace DocStore.Caller

/-! ## Parts that fail -/

theorem mapM_eq_none_iff {β γ : Type} {make : β → Option γ} {list : List β} :
    list.mapM make = none ↔ ∃ part ∈ list, make part = none := by
  induction list with
  | nil => simp
  | cons part rest ih =>
      rw [List.mapM_cons, List.exists_mem_cons_iff, ← ih]
      cases make part <;> cases rest.mapM make <;> simp

theorem mapM_fails_iff {β γ : Type} {make : β → Except Refusal γ} {list : List β} :
    (∃ refusal, list.mapM make = .error refusal)
      ↔ ∃ part ∈ list, ∃ refusal, make part = .error refusal := by
  induction list with
  | nil => simp [pure, Except.pure]
  | cons part rest ih =>
      rw [List.mapM_cons, List.exists_mem_cons_iff, ← ih]
      cases make part <;> cases rest.mapM make <;> simp [bind, Except.bind, pure, Except.pure]

theorem bind_pure_fails_iff {β γ : Type} {result : Except Refusal β} {make : β → γ} :
    (∃ refusal, (do let value ← result; return make value) = Except.error refusal)
      ↔ ∃ refusal, result = .error refusal := by
  cases result <;> simp [bind, Except.bind, pure, Except.pure]

theorem bind_pure_eq_ok_iff {β γ : Type} {result : Except Refusal β} {make : β → γ} {made : γ} :
    (do let value ← result; return make value) = Except.ok made
      ↔ ∃ value, result = .ok value ∧ make value = made := by
  cases result <;> simp [bind, Except.bind, pure, Except.pure]

theorem exists_mem_mapIdx_iff {β γ : Type} {make : Nat → β → γ} {list : List β}
    {holds : γ → Prop} {holds' : β → Prop}
    (each : ∀ number, ∀ part ∈ list, holds (make number part) ↔ holds' part) :
    (∃ made ∈ list.mapIdx make, holds made) ↔ ∃ part ∈ list, holds' part := by
  constructor
  · rintro ⟨made, member, isMade⟩
    obtain ⟨number, inside, rfl⟩ := List.mem_mapIdx.mp member
    have member := List.getElem_mem inside
    exact ⟨list[number], member, (each number _ member).mp isMade⟩
  · rintro ⟨part, member, isPart⟩
    obtain ⟨number, inside, rfl⟩ := List.mem_iff_getElem.mp member
    exact ⟨make number list[number], List.mem_mapIdx.mpr ⟨number, inside, rfl⟩,
      (each number _ member).mpr isPart⟩

/-! ## Where a form has come to -/

/-- The containers around a part, when a form has come to the part: it looks into each of them and
is writing it. -/
structure Inside (looksInto : Value → Prop) (writing : List (List Nat))
    (around : List (Value × Nat)) : Prop where
  written : ∀ container number outer, (container, number) :: outer <:+ around →
    looksInto container ∧ outer.map Prod.snd ∈ writing
  shorter : ∀ position ∈ writing, position.length < around.length

namespace Inside

variable {looksInto : Value → Prop} {writing : List (List Nat)} {around : List (Value × Nat)}

/-- A form starts where nothing is around. -/
theorem start : Inside looksInto [] [] where
  written container number outer isSuffix := by simp at isSuffix
  shorter position member := by simp at member

/-- A form goes on with a part of a container that it looks into. -/
theorem inner {container : Value} (inside : Inside looksInto writing around)
    (looked : looksInto container) (number : Nat) :
    Inside looksInto (around.map Prod.snd :: writing) ((container, number) :: around) where
  written container' number' outer isSuffix := by
    rcases List.suffix_cons_iff.mp isSuffix with isWhole | isSuffix
    · obtain ⟨⟨rfl, rfl⟩, rfl⟩ : (container' = container ∧ number' = number) ∧ outer = around := by
        simpa using isWhole
      exact ⟨looked, List.mem_cons_self⟩
    · obtain ⟨looked', member⟩ := inside.written container' number' outer isSuffix
      exact ⟨looked', List.mem_cons_of_mem _ member⟩
  shorter position member := by
    rcases List.mem_cons.mp member with rfl | member
    · simp
    · exact Nat.lt_succ_of_lt (inside.shorter position member)

/-- The part itself is not being written. -/
theorem not_contains (inside : Inside looksInto writing around) (value : Value) :
    writing.contains (View.position ⟨value, around⟩) = false :=
  not_contains_position fun position member => by
    simpa [View.position] using inside.shorter position member

/-- A reference leads nowhere or to a container that is being written. -/
theorem follow (inside : Inside looksInto writing around) (levels : Nat) :
    (View.follow ⟨.enclosing levels, around⟩).value = .enclosing levels
      ∨ looksInto (View.follow ⟨.enclosing levels, around⟩).value
        ∧ writing.contains (View.follow ⟨.enclosing levels, around⟩).position = true := by
  simp only [View.follow]
  split
  next container number outer isAround =>
    obtain ⟨looked, member⟩ :=
      inside.written container number outer (isAround ▸ List.drop_suffix _ around)
    exact .inr ⟨looked, by simpa [View.position] using member⟩
  next => exact .inl rfl

end Inside

theorem follow_alone (value : Value) : View.follow ⟨value, []⟩ = .ofValue value := by
  cases value <;> simp [View.follow, View.ofValue]

theorem Value.size_pos (value : Value) : 0 < value.size := by
  cases value <;> simp [Value.size]

/-! ## Values without a JSON form -/

/-- A value whose parts the JSON form looks for: an array, or an object that does not decide its
JSON form by a function. -/
inductive Listed : Value → Prop
  | array (items : List Value) : Listed (.array items)
  | object {fields : List (String × Value)} (bare : Bool)
      (undecided : holdsFunction "toJSON" fields = false) : Listed (.object bare fields)

/-- A value has no JSON form: it is a reference or a whole number of the unbounded kind, or one of
the parts that its JSON form looks for has none. -/
inductive Unwritable : Value → Prop
  | integer (value : Int) : Unwritable (.integer value)
  | enclosing (levels : Nat) : Unwritable (.enclosing levels)
  | item {items : List Value} {item : Value} (member : item ∈ items) (inner : Unwritable item) :
      Unwritable (.array items)
  | field {bare : Bool} {fields : List (String × Value)} {field : String × Value}
      (undecided : holdsFunction "toJSON" fields = false) (member : field ∈ fields)
      (inner : Unwritable field.2) : Unwritable (.object bare fields)

theorem unwritable_array_iff {items : List Value} :
    Unwritable (.array items) ↔ ∃ item ∈ items, Unwritable item := by
  constructor
  · rintro (_ | _ | ⟨member, inner⟩)
    exact ⟨_, member, inner⟩
  · rintro ⟨item, member, inner⟩
    exact .item member inner

theorem unwritable_object_iff {bare : Bool} {fields : List (String × Value)}
    (undecided : holdsFunction "toJSON" fields = false) :
    Unwritable (.object bare fields) ↔ ∃ field ∈ fields, Unwritable field.2 := by
  constructor
  · rintro (_ | _ | _ | ⟨_, member, inner⟩)
    exact ⟨_, member, inner⟩
  · rintro ⟨field, member, inner⟩
    exact .field undecided member inner

/-- A reference has no JSON form, as the container that it leads to is being written. -/
theorem plainWithin_enclosing {writing : List (List Nat)} {around : List (Value × Nat)}
    (inside : Inside Listed writing around) (momentForm : Option Int → Json) (depth levels : Nat) :
    (View.follow ⟨.enclosing levels, around⟩).plainWithin momentForm (depth + 1) writing
      = .error .circular := by
  obtain nowhere | ⟨listed, isWritten⟩ := inside.follow levels
  · simp [View.plainWithin, nowhere]
  · generalize View.follow ⟨.enclosing levels, around⟩ = view at listed isWritten ⊢
    obtain ⟨value, around'⟩ := view
    cases listed with
    | array items => simp only [View.plainWithin, isWritten, if_true]
    | object bare undecided =>
        simp only [View.plainWithin, undecided, isWritten, Bool.false_eq_true, if_false, if_true]

/-- A part has no JSON form exactly if it is unwritable, in any depth that it does not exceed. -/
theorem plainWithin_fails_iff (momentForm : Option Int → Json) (depth : Nat) :
    ∀ {writing : List (List Nat)} {around : List (Value × Nat)} (value : Value),
      Inside Listed writing around → value.size ≤ depth →
      ((∃ refusal, (View.follow ⟨value, around⟩).plainWithin momentForm depth writing
          = .error refusal) ↔ Unwritable value) := by
  -- What a reference leads to is larger than the reference, but by `inside` the form stops there, so
  -- only the parts of the value itself use up the depth.
  induction depth with
  | zero =>
      intro writing around value inside enough
      exact absurd value.size_pos (by omega)
  | succ depth ih =>
      intro writing around value inside enough
      cases value with
      | enclosing levels =>
          exact ⟨fun _ => .enclosing levels, fun _ =>
            ⟨.circular, plainWithin_enclosing inside momentForm depth levels⟩⟩
      | integer value => exact ⟨fun _ => .integer value, fun _ => ⟨.unbounded, rfl⟩⟩
      | array items =>
          simp only [View.follow, View.plainWithin, inside.not_contains, Bool.false_eq_true,
            if_false, bind_pure_fails_iff, mapM_fails_iff]
          rw [unwritable_array_iff]
          refine exists_mem_mapIdx_iff fun number item member => ?_
          have smaller := size_lt_of_mem_items member
          exact ih item (inside.inner (.array items) number) (by omega)
      | object bare fields =>
          cases decided : holdsFunction "toJSON" fields with
          | true =>
              refine ⟨?_, ?_⟩
              · rintro ⟨refusal, isError⟩
                simp [View.follow, View.plainWithin, decided] at isError
              · rintro (_ | _ | _ | ⟨undecided, _, _⟩)
                cases decided.symm.trans undecided
          | false =>
              simp only [View.follow, View.plainWithin, decided, inside.not_contains,
                Bool.false_eq_true, if_false, bind_pure_fails_iff, mapM_fails_iff]
              rw [unwritable_object_iff decided]
              refine exists_mem_mapIdx_iff fun number field member => ?_
              have smaller : field.2.size < (Value.object bare fields).size :=
                size_lt_of_mem_fields member
              exact ih field.2 (inside.inner (.object bare decided) number) (by omega)
      | absent | scalar | symbol | function | date | table | instanceOf =>
          constructor
          · rintro ⟨refusal, isError⟩
            simp [View.follow, View.plainWithin] at isError
          · intro unwritable
            cases unwritable

/-- **What has no JSON form.** -/
theorem plain_fails_iff {value : Value} :
    (∃ refusal, plain value = .error refusal) ↔ Unwritable value := by
  have fails := plainWithin_fails_iff momentJson (value.size + 1) value .start (Nat.le_succ _)
  rwa [follow_alone] at fails

/-! ## Values without a text form -/

theorem objectText?_eq_none_iff {bare : Bool} {fields : List (String × Value)} :
    objectText? bare fields = none
      ↔ (bare = true ∨ (fields.lookup "toString").isSome)
        ∧ holdsFunction "toString" fields = false ∧ holdsFunction "valueOf" fields = false := by
  rw [objectText?]
  cases bare <;> cases holdsFunction "toString" fields <;> cases holdsFunction "valueOf" fields
    <;> cases fields.lookup "toString" <;> simp

/-- A value has no text form: it is an object that neither inherits nor decides one, or an array
that holds a mark or an item without a text form. -/
inductive Textless : Value → Prop
  | object {bare : Bool} {fields : List (String × Value)}
      (alone : bare = true ∨ (fields.lookup "toString").isSome)
      (undecided : holdsFunction "toString" fields = false)
      (undecided' : holdsFunction "valueOf" fields = false) : Textless (.object bare fields)
  | mark {items : List Value} {description : String} (member : .symbol description ∈ items) :
      Textless (.array items)
  | item {items : List Value} {item : Value} (member : item ∈ items) (inner : Textless item) :
      Textless (.array items)

theorem textless_array_iff {items : List Value} :
    Textless (.array items) ↔ ∃ item ∈ items, isSymbol item = true ∨ Textless item := by
  constructor
  · rintro (_ | member | ⟨member, inner⟩)
    · exact ⟨_, member, .inl rfl⟩
    · exact ⟨_, member, .inr inner⟩
  · rintro ⟨item, member, isMark | inner⟩
    · cases item with
      | symbol description => exact .mark member
      | _ => cases isMark
    · exact .item member inner

theorem textless_object_iff {bare : Bool} {fields : List (String × Value)} :
    Textless (.object bare fields) ↔ objectText? bare fields = none := by
  rw [objectText?_eq_none_iff]
  constructor
  · rintro ⟨alone, undecided, undecided'⟩
    exact ⟨alone, undecided, undecided'⟩
  · rintro ⟨alone, undecided, undecided'⟩
    exact .object alone undecided undecided'

/-- A value whose parts the text form looks for. -/
def IsArray (value : Value) : Prop := ∃ items, value = .array items

/-- A reference has a text form: only arrays are around it, and an array that is being written is
written as nothing. -/
theorem textWithin?_enclosing {writing : List (List Nat)} {around : List (Value × Nat)}
    (inside : Inside IsArray writing around) (depth levels : Nat) :
    ∃ text, (View.follow ⟨.enclosing levels, around⟩).textWithin? (depth + 1) writing
      = some text := by
  obtain nowhere | ⟨⟨items, isArray⟩, isWritten⟩ := inside.follow levels
  · exact ⟨objectText, by simp only [View.textWithin?, nowhere]⟩
  · exact ⟨"", by simp only [View.textWithin?, isArray, isWritten, if_true]⟩

theorem not_textless_of_isMissing {value : Value} (missing : value.isMissing = true) :
    ¬ Textless value := by
  rintro (_ | _ | _) <;> cases missing

/-- What a reference in an array leads to counts as a value, and not as a mark, like the reference.
-/
theorem follow_alike {writing : List (List Nat)} {around : List (Value × Nat)}
    (inside : Inside IsArray writing around) (part : Value) :
    (View.follow ⟨part, around⟩).value.isMissing = part.isMissing
      ∧ isSymbol (View.follow ⟨part, around⟩).value = isSymbol part := by
  cases part with
  | enclosing levels =>
      obtain nowhere | ⟨⟨items, isArray⟩, _⟩ := inside.follow levels
      · rw [nowhere]
        exact ⟨rfl, rfl⟩
      · rw [isArray]
        exact ⟨rfl, rfl⟩
  | _ => exact ⟨rfl, rfl⟩

/-- A part has no text form exactly if it is textless, in any depth that it does not exceed. -/
theorem textWithin?_eq_none_iff (depth : Nat) :
    ∀ {writing : List (List Nat)} {around : List (Value × Nat)} (value : Value),
      Inside IsArray writing around → value.size ≤ depth →
      ((View.follow ⟨value, around⟩).textWithin? depth writing = none ↔ Textless value) := by
  induction depth with
  | zero =>
      intro writing around value inside enough
      exact absurd value.size_pos (by omega)
  | succ depth ih =>
      intro writing around value inside enough
      cases value with
      | enclosing levels =>
          obtain ⟨text, isText⟩ := textWithin?_enclosing inside depth levels
          simp only [isText, reduceCtorEq, false_iff]
          intro textless
          cases textless
      | array items =>
          simp only [View.follow, View.textWithin?, inside.not_contains, Bool.false_eq_true,
            if_false, Option.bind_eq_bind, Option.bind_eq_none_iff, Option.pure_def, reduceCtorEq,
            imp_false, ← Option.eq_none_iff_forall_ne_some, mapM_eq_none_iff]
          rw [textless_array_iff]
          refine exists_mem_mapIdx_iff fun number item member => ?_
          have inside' := inside.inner ⟨items, rfl⟩ number
          obtain ⟨missing, isMark⟩ := follow_alike inside' item
          have smaller := size_lt_of_mem_items member
          have form := ih item inside' (by omega)
          simp only [View.inner, missing, isMark]
          cases isMissing : item.isMissing with
          | true =>
              have noMark : isSymbol item = false := by
                cases item with
                | symbol description => cases isMissing
                | _ => rfl
              simp [noMark, not_textless_of_isMissing isMissing]
          | false =>
              cases isSymbol item with
              | true => simp
              | false =>
                  simp only [Bool.false_eq_true, if_false, false_or]
                  exact form
      | object bare fields => exact textless_object_iff.symm
      | scalar scalar =>
          refine iff_of_false (fun isNone => ?_) fun textless => by cases textless
          cases scalar <;> cases isNone
      | date moment =>
          refine iff_of_false (fun isNone => ?_) fun textless => by cases textless
          cases moment <;> cases isNone
      | absent | integer | symbol | function | table | instanceOf =>
          refine iff_of_false (fun isNone => ?_) fun textless => by cases textless
          cases isNone

/-- **What has no text form.** -/
theorem text?_eq_none_iff {value : Value} : text? value = none ↔ Textless value := by
  have fails := textWithin?_eq_none_iff (value.size + 1) value .start (Nat.le_succ _)
  rwa [follow_alone] at fails

/-- A value that a message would pass over has a text form. -/
theorem not_textless_of_plain {value : Value} (passed : plain value = .ok none) :
    ¬ Textless value := by
  cases value with
  | array items =>
      simp only [plain, View.plain, View.plainBy, View.plainWithin, View.ofValue] at passed
      obtain ⟨_, _, isNone⟩ := bind_pure_eq_ok_iff.mp passed
      cases isNone
  | object bare fields =>
      simp only [plain, View.plain, View.plainBy, View.plainWithin, View.ofValue] at passed
      cases decided : holdsFunction "toJSON" fields with
      | true => simp [decided] at passed
      | false =>
          rw [decided] at passed
          obtain ⟨_, _, isNone⟩ := bind_pure_eq_ok_iff.mp passed
          cases isNone
  | _ =>
      intro textless
      cases textless

/-- **What cannot be told**: a message shows every value but those that have neither form. -/
theorem describe?_eq_none_iff {value : Value} :
    describe? value = none ↔ Unwritable value ∧ Textless value := by
  have shown : jsonText .line value = (plain value).map (Option.map (Json.text .line)) := rfl
  rw [describe?, shown, ← plain_fails_iff, ← text?_eq_none_iff]
  cases isPlain : plain value with
  | error refusal => simp [Except.map]
  | ok form =>
      cases form with
      | some form => simp [Except.map]
      | none => simpa [Except.map, text?_eq_none_iff] using not_textless_of_plain isPlain

/-- An object that inherits nothing is told by its fields, unless one of them has no JSON form. -/
example : describe? (.object true [("n", .scalar .null)]) = some "\x7b\"n\":null\x7d"
    ∧ describe? (.object true [("n", .integer 1)]) = none := by
  constructor <;> decide +kernel

end DocStore.Caller
