import DocStore.Constraint.Schema
/-!
# What validators tell

What a value breaks of a schema is said part by part, by what is asked of the part (`Schema.Breaks`),
and not by going through the value.  A validator conforms when it tells just that
(`Validator.Conforms`), in whatever order.  `Schema.validate` conforms (`conforms_validate`), by one
induction over schemas (`mem_errors_iff`).
-/

set_option autoImplicit false

namespace DocStore

open Caller (Value)

namespace Schema

/-- What a value at a place, among some containers, breaks of a schema. -/
inductive Breaks : List Value → List String → Value → Schema → SchemaError → Prop
  | noString {around : List Value} {place : List String} {value : Value}
      (isNone : value.string? = none) : Breaks around place value .string (.wrongType place)
  | noObject {around : List Value} {place : List String} {value : Value}
      {properties : List (String × Schema)} {others : Option Schema}
      (isNone : (value.among around).1.isObject = false) :
      Breaks around place value (.object properties others) (.wrongType place)
  | unknown {around outer : List Value} {place : List String} {value container part : Value}
      {properties : List (String × Schema)} {key : String}
      (stands : value.among around = (container, outer)) (isObject : container.isObject = true)
      (inside : (key, part) ∈ container.fields) (unnamed : key ∉ properties.map Prod.fst) :
      Breaks around place value (.object properties none) (.unknownKey place key)
  | other {around outer : List Value} {place : List String} {value container part : Value}
      {properties : List (String × Schema)} {key : String} {schema : Schema} {error : SchemaError}
      (stands : value.among around = (container, outer)) (isObject : container.isObject = true)
      (inside : (key, part) ∈ container.fields) (unnamed : key ∉ properties.map Prod.fst)
      (breaks : Breaks (container :: outer) (place ++ [key]) part schema error) :
      Breaks around place value (.object properties (some schema)) error
  | named {around outer : List Value} {place : List String} {value container part : Value}
      {properties : List (String × Schema)} {others : Option Schema} {key : String}
      {schema : Schema} {error : SchemaError}
      (stands : value.among around = (container, outer)) (isObject : container.isObject = true)
      (found : container.fields.lookup key = some part) (present : part.isAbsent = false)
      (isNamed : (key, schema) ∈ properties)
      (breaks : Breaks (container :: outer) (place ++ [key]) part schema error) :
      Breaks around place value (.object properties others) error

theorem mem_unnamed {properties : List (String × Schema)} {fields : List (String × Value)}
    {field : String × Value} :
    field ∈ unnamed properties fields ↔ field ∈ fields ∧ field.1 ∉ properties.map Prod.fst := by
  simp [unnamed]

theorem held?_eq_some_iff {fields : List (String × Value)} {key : String} {value : Value} :
    held? fields key = some value ↔ fields.lookup key = some value ∧ value.isAbsent = false := by
  simp [held?, Option.filter_eq_some_iff]

theorem mem_elim_nil_iff {α β : Type} {list : α → List β} {found : Option α} {element : β} :
    element ∈ found.elim [] list ↔ ∃ value, found = some value ∧ element ∈ list value := by
  cases found <;> simp

theorem not_breaks_any {around : List Value} {place : List String} {value : Value}
    {error : SchemaError} : ¬ Breaks around place value .any error :=
  nofun

mutual
theorem mem_errors_iff (schema : Schema) (around : List Value) (place : List String)
    (value : Value) (error : SchemaError) :
    error ∈ schema.errors around place value ↔ Breaks around place value schema error := by
  match schema with
  | .any => simp [errors, not_breaks_any]
  | .string =>
      rw [errors]
      split
      next isSome =>
        refine ⟨fun member => (List.not_mem_nil member).elim, fun breaks => ?_⟩
        cases breaks with
        | noString isNone => rw [isNone] at isSome; cases isSome
      next noString =>
        rw [List.mem_singleton]
        constructor
        · rintro rfl
          exact .noString (by simpa using noString)
        · rintro ⟨⟩
          rfl
  | .object properties others =>
      rw [errors]
      generalize stands : value.among around = standing
      obtain ⟨container, outer⟩ := standing
      dsimp only
      split
      next isObject =>
        rw [List.mem_append, mem_errorsOfOthers_iff others, mem_errorsOfNamed_iff properties]
        constructor
        · rintro (⟨key, part, inside, told⟩ | ⟨key, part, schema, isNamed, found, present, breaks⟩)
          · obtain ⟨inside, unnamed⟩ := mem_unnamed.mp inside
            cases others with
            | none => exact told ▸ .unknown stands isObject inside unnamed
            | some schema => exact .other stands isObject inside unnamed told
          · exact .named stands isObject found present isNamed breaks
        · intro breaks
          cases breaks with
          | noObject isNone =>
              rw [stands, isObject] at isNone
              cases isNone
          | unknown stands' _ inside unnamed =>
              cases stands.symm.trans stands'
              exact .inl ⟨_, _, mem_unnamed.mpr ⟨inside, unnamed⟩, rfl⟩
          | other stands' _ inside unnamed breaks =>
              cases stands.symm.trans stands'
              exact .inl ⟨_, _, mem_unnamed.mpr ⟨inside, unnamed⟩, breaks⟩
          | named stands' _ found present isNamed breaks =>
              cases stands.symm.trans stands'
              exact .inr ⟨_, _, _, isNamed, found, present, breaks⟩
      next noObject =>
        have isNone : container.isObject = false := by simpa using noObject
        rw [List.mem_singleton]
        constructor
        · rintro rfl
          exact .noObject (stands ▸ isNone)
        · intro breaks
          cases breaks with
          | noObject => rfl
          | unknown stands' isObject | other stands' isObject | named stands' isObject =>
              cases stands.symm.trans stands'
              rw [isNone] at isObject
              cases isObject

theorem mem_errorsOfOthers_iff (others : Option Schema) (around : List Value)
    (place : List String) (fields : List (String × Value)) (error : SchemaError) :
    error ∈ errorsOfOthers around place fields others ↔ ∃ key part, (key, part) ∈ fields
      ∧ match others with
        | none => error = .unknownKey place key
        | some schema => Breaks around (place ++ [key]) part schema error := by
  match others with
  | none => simp [errorsOfOthers, eq_comm]
  | some schema => simp [errorsOfOthers, mem_errors_iff schema]

theorem mem_errorsOfNamed_iff (properties : List (String × Schema)) (around : List Value)
    (place : List String) (fields : List (String × Value)) (error : SchemaError) :
    error ∈ errorsOfNamed around place fields properties
      ↔ ∃ key part schema, (key, schema) ∈ properties ∧ fields.lookup key = some part
        ∧ part.isAbsent = false ∧ Breaks around (place ++ [key]) part schema error := by
  match properties with
  | [] => simp [errorsOfNamed]
  | (key, schema) :: rest =>
      rw [errorsOfNamed, List.mem_append, mem_elim_nil_iff, mem_errorsOfNamed_iff rest]
      simp only [held?_eq_some_iff, mem_errors_iff schema]
      constructor
      · rintro (⟨part, ⟨found, present⟩, breaks⟩ | ⟨key', part, schema', isNamed, rest⟩)
        · exact ⟨key, part, schema, by simp, found, present, breaks⟩
        · exact ⟨key', part, schema', List.mem_cons_of_mem _ isNamed, rest⟩
      · rintro ⟨key', part, schema', isNamed, found, present, breaks⟩
        rcases List.mem_cons.mp isNamed with same | isNamed
        · cases same
          exact .inl ⟨part, ⟨found, present⟩, breaks⟩
        · exact .inr ⟨key', part, schema', isNamed, found, present, breaks⟩
end

end Schema

/-- A validator tells all that a value breaks of a schema, and nothing else. -/
structure Validator.Conforms (validate : Validator) : Prop where
  accepts : ∀ schema value, validate schema value = none
    ↔ ∀ error, ¬ Schema.Breaks [] [] value schema error
  tells : ∀ schema value errors, validate schema value = some errors →
    ∀ error, error ∈ errors ↔ Schema.Breaks [] [] value schema error

/-- **The errors of a schema are all that a value breaks of it.** -/
theorem Schema.conforms_validate : Validator.Conforms validate := by
  constructor
  · intro schema value
    simp only [← mem_errors_iff, validate]
    cases schema.errors [] [] value with
    | nil => simp
    | cons error rest => exact iff_of_false nofun fun none => none error (by simp)
  · intro schema value errors isErrors error
    rw [← mem_errors_iff]
    unfold validate at isErrors
    split at isErrors
    · cases isErrors
    · cases isErrors
      rfl

end DocStore
