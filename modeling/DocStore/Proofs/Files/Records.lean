import DocStore.Proofs.Caller.Plain
import DocStore.Proofs.Constraint.Spec
import DocStore.Proofs.Files.Documents
/-!
# Constraints as they are kept

A constraint is kept under its name, as an object with a string as its field, one of three kinds and,
where it declares a type, the name of the type.  Which values are such objects is told by
`Constraint.Describes`, and a value is taken for a constraint exactly when it describes it
(`Constraint.ofValue?_eq_some_iff`).  That depends on three keys only, so a value may hold more than
that.

`Constraint.kept_by_name_and_record` puts together what the storage relies on: no two constraints
share a name, a record that has been written gives its constraint back, and nothing else passes for
one.
-/

set_option autoImplicit false

namespace DocStore

/-! ## Parts -/

/-- A rule is found by the name of its kind and, where it declares a type, the name of the type. -/
theorem Rule.ofNames?_eq_some_iff {kind : String} {type : Option String} {rule : Rule} :
    ofNames? kind type = some rule
      ↔ kind = rule.kindName ∧ ∀ declared, rule = .hasType declared → type = some declared.name := by
  constructor
  · intro found
    unfold ofNames? at found
    split at found
    next isKind =>
      cases found
      exact ⟨isKind, nofun⟩
    next =>
      split at found
      next isKind =>
        cases found
        exact ⟨isKind, nofun⟩
      next =>
        split at found
        next isKind =>
          obtain ⟨declared, isType, rfl⟩ := Option.map_eq_some_iff.mp found
          obtain ⟨name, rfl, isName⟩ := Option.bind_eq_some_iff.mp isType
          refine ⟨isKind, fun declared' same => ?_⟩
          cases same
          rw [JsonType.ofName?_eq_some_iff.mp isName]
        next => cases found
  · rintro ⟨rfl, given⟩
    cases rule with
    | required => rfl
    | notNull => rfl
    | hasType declared =>
        rw [given declared rfl]
        cases declared <;> rfl

namespace Caller

theorem Value.string?_eq_some_iff {value : Value} {text : String} :
    value.string? = some text ↔ value = .ofString text := by
  constructor
  · intro isText
    unfold Value.string? at isText
    split at isText
    · rw [Option.some.inj isText]
      rfl
    · cases isText
  · rintro rfl
    rfl

/-- A JSON value that a caller passes in has the fields that it has as JSON. -/
theorem field?_ofJson (key : String) (value : Json) :
    (ofJson value).field? key = (value.field? key).map ofJson := by
  cases value with
  | leaf _ => rfl
  | array items =>
      rw [ofJson_array]
      rfl
  | object fields =>
      rw [ofJson_object]
      exact Lookup.lookup_map ofJson fields key

theorem string?_ofJson (value : Json) : (ofJson value).string? = value.string? := by
  cases value with
  | leaf scalar => cases scalar <;> rfl
  | array items =>
      rw [ofJson_array]
      rfl
  | object fields =>
      rw [ofJson_object]
      rfl

end Caller

namespace Constraint

open Caller (Value)

theorem ofParts?_eq_some_iff {field kind type : Option String} {constraint : Constraint} :
    ofParts? field kind type = some constraint
      ↔ field = some constraint.field ∧ kind = some constraint.rule.kindName
        ∧ ∀ declared, constraint.rule = .hasType declared → type = some declared.name := by
  constructor
  · intro found
    obtain ⟨text, rfl, found⟩ := Option.bind_eq_some_iff.mp found
    obtain ⟨name, rfl, found⟩ := Option.bind_eq_some_iff.mp found
    obtain ⟨rule, isRule, found⟩ := Option.bind_eq_some_iff.mp found
    cases found
    obtain ⟨rfl, given⟩ := Rule.ofNames?_eq_some_iff.mp isRule
    exact ⟨rfl, rfl, given⟩
  · rintro ⟨rfl, rfl, given⟩
    have isRule := Rule.ofNames?_eq_some_iff.mpr ⟨rfl, given⟩
    simp only [ofParts?, Option.bind_eq_bind, Option.bind_some, isRule]
    rfl

/-! ## Descriptions -/

/-- What a value has to hold to pass for a constraint. -/
inductive Describes (value : Value) : Constraint → Prop where
  | required {field : String} (hasField : value.field? "field" = some (.ofString field))
      (hasKind : value.field? "kind" = some (.ofString "required")) :
      Describes value ⟨field, .required⟩
  | notNull {field : String} (hasField : value.field? "field" = some (.ofString field))
      (hasKind : value.field? "kind" = some (.ofString "notnull")) :
      Describes value ⟨field, .notNull⟩
  | hasType {field : String} {type : JsonType}
      (hasField : value.field? "field" = some (.ofString field))
      (hasKind : value.field? "kind" = some (.ofString "type"))
      (declares : value.field? "type" = some (.ofString type.name)) :
      Describes value ⟨field, .hasType type⟩

/-- **A value is taken for a constraint** exactly when it describes it. -/
theorem ofValue?_eq_some_iff {value : Value} {constraint : Constraint} :
    ofValue? value = some constraint ↔ Describes value constraint := by
  have part (key text : String) :
      (value.field? key).bind Value.string? = some text
        ↔ value.field? key = some (.ofString text) := by
    rw [Option.bind_eq_some_iff]
    constructor
    · rintro ⟨inner, found, isText⟩
      rw [found, Value.string?_eq_some_iff.mp isText]
    · exact fun found => ⟨_, found, rfl⟩
  simp only [ofValue?, ofParts?_eq_some_iff, part]
  obtain ⟨field, rule⟩ := constraint
  constructor
  · rintro ⟨hasField, hasKind, declares⟩
    cases rule with
    | required => exact .required hasField hasKind
    | notNull => exact .notNull hasField hasKind
    | hasType type => exact .hasType hasField hasKind (declares type rfl)
  · intro describes
    cases describes with
    | required hasField hasKind => exact ⟨hasField, hasKind, nofun⟩
    | notNull hasField hasKind => exact ⟨hasField, hasKind, nofun⟩
    | hasType hasField hasKind declares =>
        refine ⟨hasField, hasKind, fun type same => ?_⟩
        cases same
        exact declares

/-- What a JSON value is taken for does not depend on who passes it in. -/
theorem ofValue?_ofJson (value : Json) : ofValue? (Caller.ofJson value) = ofJson? value := by
  have part (key : String) :
      ((Caller.ofJson value).field? key).bind Value.string?
        = (value.field? key).bind Json.string? := by
    rw [Caller.field?_ofJson]
    cases value.field? key with
    | none => rfl
    | some inner => exact Caller.string?_ofJson inner
  simp only [ofValue?, ofJson?, part]

/-! ## Records -/

/-- **A record of a constraint is read back**, whatever its name, the indentation and the order of
keys. -/
theorem exists_record_read_back (name : String) (constraint : Constraint) (indent : Number)
    (order : Json.KeyOrder) :
    ∃ text back kept,
      Caller.canonicalText (.ofNumber indent) order
          (Caller.ofJson (StoredCheck.toJson ⟨name, constraint⟩)) = .ok text
        ∧ Json.parse? text = some back ∧ back.field? "constraint" = some kept
        ∧ ofValue? (Caller.ofJson kept) = some constraint := by
  have wellFormed : (StoredCheck.toJson ⟨name, constraint⟩).WellFormed :=
    FileStore.wellFormed_storedCheck ⟨name, constraint⟩
  have inside : (StoredCheck.toJson ⟨name, constraint⟩).field? "constraint"
      = some constraint.toJson := rfl
  refine ⟨_, Json.settled order (StoredCheck.toJson ⟨name, constraint⟩),
    Json.settled order constraint.toJson, Caller.canonicalText_ofJson _ order _,
    Json.parse?_canonicalText (Json.Layout.blank_ofNumber indent) wellFormed order, ?_, ?_⟩
  · rw [Json.field?_settled order wellFormed, inside, Option.map_some]
  · rw [ofValue?_ofJson, FileStore.ofJson?_settled order (FileStore.wellFormed_constraint _),
      ofJson?_toJson]

/-- **Constraints are kept apart and given back.**  Constraints of one name are the same, whatever
their fields are.  What is read from the text of a record is the constraint that was written, whatever
its name, the indentation and the order of keys.  A value passes for a constraint exactly when it
holds a string as its field, a known kind and, where the kind is that of types, the name of a type. -/
theorem kept_by_name_and_record :
    (∀ constraint constraint' : Constraint, constraint.name = constraint'.name →
        constraint = constraint')
      ∧ (∀ (name : String) (constraint : Constraint) (indent : Number) (order : Json.KeyOrder),
        ∃ text back kept,
          Caller.canonicalText (.ofNumber indent) order
              (Caller.ofJson (StoredCheck.toJson ⟨name, constraint⟩)) = .ok text
            ∧ Json.parse? text = some back ∧ back.field? "constraint" = some kept
            ∧ ofValue? (Caller.ofJson kept) = some constraint)
      ∧ ∀ (value : Value) (constraint : Constraint),
        ofValue? value = some constraint ↔ Describes value constraint :=
  ⟨fun _ _ same => name_injective same, exists_record_read_back, fun _ _ => ofValue?_eq_some_iff⟩

/-- A field that ends as a name does is kept apart from what has that name, and a value may hold more
than its constraint. -/
theorem name_like_fields_kept_apart :
    name ⟨"a:required", .notNull⟩ ≠ name ⟨"a", .required⟩
      ∧ ofValue? (.object false [("field", .ofString "a:notnull"), ("note", .absent),
          ("kind", .ofString "type"), ("type", .ofString "array")])
        = some ⟨"a:notnull", .hasType .array⟩ := by
  obtain ⟨apart, -, told⟩ := kept_by_name_and_record
  exact ⟨fun same => absurd (apart _ _ same) (by decide), (told _ _).mpr (.hasType rfl rfl rfl)⟩

end Constraint

end DocStore
