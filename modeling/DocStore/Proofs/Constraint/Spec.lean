import DocStore.Constraint.Basic
import DocStore.Constraint.Spec
import DocStore.Error.Failure
import DocStore.Proofs.Caller.Normal
import DocStore.Proofs.Constraint.Schema
import DocStore.Proofs.Json.Pointers
import DocStore.Proofs.Lookup
import Mathlib.Data.List.Infix
/-!
# What specifications ask for

A specification of the right shape (`Spec.Fits`) asks for one constraint with each rule that it has
for a field, except for types of unknown names (`Spec.Requests`).  `exists_readSpec_iff` says which
specifications are read, and `mem_readSpec` that what is read is what they ask for, whatever the
order in which they are written.  None of this mentions how a specification is gone through.

What can be wrong with the shape of a specification (`Spec.Offends`) is just what breaks its schema
(`offends_of_breaks`, `exists_breaks`), so any validator that conforms to the schema refuses what
does not fit, for all that is wrong with it (`checkSpecBy_eq_ok_iff`, `checkSpecBy_eq_error`).
-/

set_option autoImplicit false

namespace DocStore

/-- A text is the name of a type exactly when the type is found by it. -/
theorem JsonType.ofName?_eq_some_iff {name : String} {type : JsonType} :
    ofName? name = some type ↔ name = type.name := by
  constructor
  · intro found
    have isName := List.find?_some found
    exact (beq_iff_eq.mp isName).symm
  · rintro rfl
    exact ofName?_name type

/-- Callers pass each key of an object once, also in the values of its fields. -/
theorem Caller.Value.Distinct.fields {value : Caller.Value} (distinct : value.Distinct) :
    (value.fields.map Prod.fst).Nodup ∧ ∀ field ∈ value.fields, field.2.Distinct := by
  cases distinct with
  | array each => exact ⟨.nil, nofun⟩
  | object distinct each => exact ⟨distinct, each⟩
  | other _ noObject =>
      cases value with
      | object bare fields => exact absurd rfl (noObject bare fields)
      | _ => exact ⟨.nil, nofun⟩

/-- The key of a rule in specifications. -/
def Rule.token : Rule → String
  | required => "$required"
  | notNull => "$notnull"
  | hasType _ => "$type"

/-- A value gives what a rule has to be given: the name of its type, if it is about a type. -/
def Rule.Given (rule : Rule) (value : Caller.Value) : Prop :=
  ∀ type, rule = .hasType type → value.string? = some type.name

namespace Spec

/-! ## Specifications -/

/-- A specification has a rule for a field, with a value. -/
def HasRule (spec : Caller.Value) (field token : String) (value : Caller.Value) : Prop :=
  ∃ rules, (field, rules) ∈ spec.fields ∧ (token, value) ∈ rulesOf spec rules

/-- A specification has a rule for some field. -/
def HasRules (spec : Caller.Value) : Prop :=
  ∃ field token value, HasRule spec field token value

/-- The shape of a specification: an object of objects, which have known keys only, and a string as
the type if there is one. -/
structure Fits (spec : Caller.Value) : Prop where
  isObject : spec.isObject = true
  rules : ∀ entry ∈ spec.fields, entry.2.isObject = true
  tokens : ∀ field token value, HasRule spec field token value → token ∈ ruleTokens
  types : ∀ field value, HasRule spec field "$type" value →
    value.isAbsent = true ∨ value.string?.isSome = true

/-- Every type of a specification has the name of a type. -/
def KnowsTypes (spec : Caller.Value) : Prop :=
  ∀ field value, HasRule spec field "$type" value →
    ∃ type : JsonType, value.string? = some type.name

/-- A specification asks for a constraint by the rule of its key, and where it is about a type by
the name of the type. -/
def Requests (spec : Caller.Value) (constraint : Constraint) : Prop :=
  ∃ value, HasRule spec constraint.field constraint.rule.token value
    ∧ constraint.rule.Given value

/-- The rules of a field have each key once, also where they are the specification itself. -/
theorem nodup_rulesOf {spec : Caller.Value} (distinct : spec.Distinct)
    {field : String} {rules : Caller.Value} (inside : (field, rules) ∈ spec.fields) :
    ((rulesOf spec rules).map Prod.fst).Nodup := by
  obtain ⟨keys, each⟩ := distinct.fields
  unfold rulesOf
  split
  · exact keys
  · exact (each _ inside).fields.1

/-- A specification that fits and knows its types asks for something with every rule. -/
theorem hasRules_iff {spec : Caller.Value} (fits : Fits spec) (knows : KnowsTypes spec) :
    HasRules spec ↔ ∃ constraint, Requests spec constraint := by
  constructor
  · rintro ⟨field, token, value, hasRule⟩
    have isToken := fits.tokens field token value hasRule
    simp only [ruleTokens, List.mem_cons, List.not_mem_nil, or_false] at isToken
    rcases isToken with rfl | rfl | rfl
    · exact ⟨⟨field, .required⟩, value, hasRule, nofun⟩
    · exact ⟨⟨field, .notNull⟩, value, hasRule, nofun⟩
    · obtain ⟨type, isName⟩ := knows field value hasRule
      exact ⟨⟨field, .hasType type⟩, value, hasRule, fun _ same => by cases same; exact isName⟩
  · rintro ⟨constraint, value, hasRule, _⟩
    exact ⟨_, _, value, hasRule⟩

/-! ## Shapes -/

/-- What is wrong with the shape of a specification. -/
inductive Offends (spec : Caller.Value) : SpecFault → Prop
  | root (noObject : spec.isObject = false) : Offends spec .notMapping
  | rules {field : String} {rules : Caller.Value} (inside : (field, rules) ∈ spec.fields)
      (noObject : rules.isObject = false) : Offends spec (.rulesNotObject field)
  | token {field token : String} {value : Caller.Value} (hasRule : HasRule spec field token value)
      (unknown : token ∉ ruleTokens) : Offends spec (.unknownRule token field)
  | type {field : String} {value : Caller.Value} (hasRule : HasRule spec field "$type" value)
      (present : value.isAbsent = false) (noString : value.string? = none) :
      Offends spec (.typeNotString field)

/-- A specification fits exactly when nothing is wrong with its shape. -/
theorem fits_iff {spec : Caller.Value} : Fits spec ↔ ∀ fault, ¬ Offends spec fault := by
  constructor
  · rintro fits fault (noObject | ⟨inside, noObject⟩ | ⟨hasRule, unknown⟩ | ⟨hasRule, present, noString⟩)
    · rw [fits.isObject] at noObject
      cases noObject
    · rw [fits.rules _ inside] at noObject
      cases noObject
    · exact unknown (fits.tokens _ _ _ hasRule)
    · rcases fits.types _ _ hasRule with isAbsent | isString
      · rw [present] at isAbsent
        cases isAbsent
      · rw [noString] at isString
        cases isString
  · intro nothing
    refine ⟨?_, fun entry inside => ?_, fun field token value hasRule => ?_,
      fun field value hasRule => ?_⟩
    · by_contra noObject
      exact nothing _ (.root (by simpa using noObject))
    · by_contra noObject
      exact nothing _ (.rules inside (by simpa using noObject))
    · by_contra unknown
      exact nothing _ (.token hasRule unknown)
    · by_contra neither
      rw [not_or] at neither
      exact nothing _ (.type hasRule (by simpa using neither.1) (by simpa using neither.2))

/-! ## What a validator tells of a specification -/

section

variable {spec rules : Caller.Value} {field : String} {error : SchemaError}

theorem among_nil (value : Caller.Value) : value.among [] = (value, []) := by
  cases value with
  | enclosing levels =>
      cases levels with
      | zero => rfl
      | succ levels => rw [Caller.Value.among, List.drop_nil]
  | _ => rfl

/-- The rules of a field stand among no other containers than the specification. -/
theorem among_spec (spec rules : Caller.Value) :
    (rules.among [spec]).1.fields = rulesOf spec rules
      ∧ (spec.isObject = true → (rules.among [spec]).1.isObject = rules.isObject) := by
  cases rules with
  | enclosing levels =>
      match levels with
      | 0 => exact ⟨rfl, fun _ => rfl⟩
      | 1 => exact ⟨rfl, fun isObject => isObject⟩
      | levels + 2 =>
          rw [Caller.Value.among, List.drop_succ_cons, List.drop_nil]
          exact ⟨rfl, fun _ => rfl⟩
  | _ => exact ⟨rfl, fun _ => rfl⟩

theorem isObject_of_mem_rulesOf {rule : String × Caller.Value} (isRule : rule ∈ rulesOf spec rules) :
    rules.isObject = true := by
  cases rules with
  | object _ _ | enclosing _ => rfl
  | _ => cases isRule

theorem ofError_wrongType_nil : SpecFault.ofError (.wrongType []) = .notMapping := by
  rw [SpecFault.ofError, SchemaError.wrongType, Json.Pointer.steps_text]

theorem ofError_wrongType (field : String) :
    SpecFault.ofError (.wrongType [field]) = .rulesNotObject field
      ∧ SpecFault.ofError (.wrongType [field, "$type"]) = .typeNotString field := by
  simp [SpecFault.ofError, SchemaError.wrongType, Json.Pointer.steps_text]

theorem ofError_unknownKey (field token : String) :
    SpecFault.ofError (.unknownKey [field] token) = .unknownRule token field := by
  simp [SpecFault.ofError, SchemaError.unknownKey, Json.Pointer.steps_text]

/-- What a rule set breaks of its schema is wrong with the specification. -/
theorem offends_of_breaks_rules (isObject : spec.isObject = true)
    (inside : (field, rules) ∈ spec.fields)
    (breaks : Schema.Breaks [spec] [field] rules rulesSchema error) :
    Offends spec (.ofError error) := by
  obtain ⟨sameFields, sameKind⟩ := among_spec spec rules
  cases breaks with
  | noObject isNone =>
      rw [(ofError_wrongType field).1]
      exact .rules inside (sameKind isObject ▸ isNone)
  | unknown stands _ isRule unnamed =>
      rw [stands] at sameFields
      rw [ofError_unknownKey]
      exact .token ⟨rules, inside, sameFields ▸ isRule⟩ unnamed
  | named stands _ found present isNamed breaks =>
      rw [stands] at sameFields
      simp only [List.mem_cons, Prod.mk.injEq, List.not_mem_nil, or_false] at isNamed
      rcases isNamed with ⟨rfl, rfl⟩ | ⟨rfl, rfl⟩ | ⟨rfl, rfl⟩
      · cases breaks
      · cases breaks
      · cases breaks with
        | noString isNone =>
            rw [List.singleton_append, (ofError_wrongType field).2]
            exact .type ⟨rules, inside, sameFields ▸ Lookup.mem_of_lookup found⟩ present isNone

/-- What a specification breaks of its schema is wrong with its shape. -/
theorem offends_of_breaks (breaks : Schema.Breaks [] [] spec specSchema error) :
    Offends spec (.ofError error) := by
  cases breaks with
  | noObject isNone =>
      rw [ofError_wrongType_nil]
      exact .root (by rwa [among_nil] at isNone)
  | other stands isObject inside _ breaks =>
      rw [among_nil] at stands
      cases stands
      exact offends_of_breaks_rules isObject inside breaks
  | named _ _ _ _ isNamed => cases isNamed

/-- Whatever is wrong with the shape of a specification breaks its schema. -/
theorem exists_breaks (distinct : spec.Distinct) {fault : SpecFault} (offends : Offends spec fault) :
    ∃ error, Schema.Breaks [] [] spec specSchema error ∧ .ofError error = fault := by
  have below {field : String} {rules : Caller.Value} {error : SchemaError}
      (inside : (field, rules) ∈ spec.fields)
      (breaks : spec.isObject = true → Schema.Breaks [spec] [field] rules rulesSchema error) :
      Schema.Breaks [] [] spec specSchema error := by
    have isObject : spec.isObject = true := by
      cases spec with
      | object _ _ => rfl
      | _ => cases inside
    exact .other (among_nil spec) isObject inside (by simp) (breaks isObject)
  cases offends with
  | root noObject =>
      exact ⟨_, .noObject (by rwa [among_nil]), ofError_wrongType_nil⟩
  | @rules field rules inside noObject =>
      exact ⟨_, below inside fun isObject => .noObject ((among_spec spec rules).2 isObject ▸ noObject),
        (ofError_wrongType field).1⟩
  | @token field token value hasRule unknown =>
      obtain ⟨rules, inside, isRule⟩ := hasRule
      obtain ⟨sameFields, sameKind⟩ := among_spec spec rules
      refine ⟨_, below inside fun isObject => .unknown rfl ?_ (sameFields ▸ isRule) unknown,
        ofError_unknownKey field token⟩
      exact (sameKind isObject).trans (isObject_of_mem_rulesOf isRule)
  | @type field value hasRule present noString =>
      obtain ⟨rules, inside, isRule⟩ := hasRule
      obtain ⟨sameFields, sameKind⟩ := among_spec spec rules
      refine ⟨_, below inside fun isObject =>
        .named rfl ((sameKind isObject).trans (isObject_of_mem_rulesOf isRule))
          (?_ : List.lookup "$type" (rules.among [spec]).1.fields = some value) present
          (by simp) (.noString noString), (ofError_wrongType field).2⟩
      · rw [sameFields]
        exact (Lookup.lookup_eq_some_iff (nodup_rulesOf distinct inside)).mpr isRule

end

section

variable {validate : Validator} (conforms : validate.Conforms) {spec : Caller.Value}
  (distinct : spec.Distinct)
include conforms distinct

/-- A conforming validator accepts a specification exactly when it fits. -/
theorem checkSpecBy_eq_ok_iff : checkSpecBy validate spec = .ok () ↔ Fits spec := by
  have accepts : validate specSchema spec = none ↔ Fits spec := by
    rw [conforms.accepts, fits_iff]
    constructor
    · intro nothing fault offends
      obtain ⟨error, breaks, _⟩ := exists_breaks distinct offends
      exact nothing error breaks
    · exact fun nothing error breaks => nothing _ (offends_of_breaks breaks)
  rw [← accepts, checkSpecBy]
  cases validate specSchema spec with
  | none => exact iff_of_true rfl rfl
  | some errors => exact iff_of_false nofun nofun

/-- A conforming validator refuses a specification for just what is wrong with its shape. -/
theorem checkSpecBy_eq_error {refusal : SpecRefusal}
    (refused : checkSpecBy validate spec = .error refusal) :
    ∃ faults, refusal = .faults faults ∧ ∀ fault, fault ∈ faults ↔ Offends spec fault := by
  unfold checkSpecBy at refused
  split at refused
  · cases refused
  next errors isErrors =>
    cases refused
    refine ⟨_, rfl, fun fault => ?_⟩
    rw [List.mem_map]
    simp only [conforms.tells _ _ _ isErrors]
    constructor
    · rintro ⟨error, breaks, rfl⟩
      exact offends_of_breaks breaks
    · exact exists_breaks distinct

end

/-! ## Reading in turn -/

section

variable {ε α β : Type}

/-- What is read from each element, one after another. -/
def collected (read : α → Except ε (List β)) : List α → Except ε (List β)
  | [] => .ok []
  | element :: rest => do
      let first ← read element
      let others ← collected read rest
      return first ++ others

variable {read : α → Except ε (List β)}

theorem exists_collected_iff {list : List α} :
    (∃ found, collected read list = .ok found)
      ↔ ∀ element ∈ list, ∃ found, read element = .ok found := by
  induction list with
  | nil => exact ⟨fun _ => nofun, fun _ => ⟨[], rfl⟩⟩
  | cons element rest ih =>
      rw [List.forall_mem_cons, ← ih]
      constructor
      · rintro ⟨found, reads⟩
        obtain ⟨first, isFirst, reads⟩ := Caller.bind_eq_ok reads
        obtain ⟨others, areOthers, _⟩ := Caller.bind_eq_ok reads
        exact ⟨⟨first, isFirst⟩, others, areOthers⟩
      · rintro ⟨⟨first, isFirst⟩, others, areOthers⟩
        refine ⟨first ++ others, ?_⟩
        rw [collected, isFirst, areOthers]
        rfl

theorem mem_collected {list : List α} {found : List β} (reads : collected read list = .ok found)
    {result : β} :
    result ∈ found ↔ ∃ element ∈ list, ∃ part, read element = .ok part ∧ result ∈ part := by
  induction list generalizing found with
  | nil =>
      cases reads
      simp
  | cons element rest ih =>
      obtain ⟨first, isFirst, reads⟩ := Caller.bind_eq_ok reads
      obtain ⟨others, areOthers, reads⟩ := Caller.bind_eq_ok reads
      cases reads
      simp [ih areOthers, isFirst]

end

theorem readRules_eq (checkTypes : Bool) (field : String)
    (entries : List (String × Caller.Value)) :
    readRules checkTypes field entries
      = collected (fun entry => readRule checkTypes field entry.1 entry.2) entries := by
  induction entries with
  | nil => rfl
  | cons entry rest ih => rw [readRules, collected, ih]

theorem readFields_eq (checkTypes : Bool) (spec : Caller.Value)
    (fields : List (String × Caller.Value)) :
    readFields checkTypes spec fields
      = collected (fun entry => readRules checkTypes entry.1 (rulesOf spec entry.2)) fields := by
  induction fields with
  | nil => rfl
  | cons entry rest ih => rw [readFields, collected, ih]

/-! ## Reading a specification -/

section

variable {checkTypes : Bool} {field token : String} {value spec : Caller.Value}
  {constraints : List Constraint} {constraint : Constraint}

/-- A type is found by the value of a rule exactly when the value is its name. -/
theorem typeOf_eq_some_iff {type : JsonType} :
    JsonType.ofName? (value.string?.getD "") = some type ↔ value.string? = some type.name := by
  rw [JsonType.ofName?_eq_some_iff]
  cases value.string? with
  | some name => simp
  | none => cases type <;> decide

theorem given_hasType {type : JsonType} :
    (Rule.hasType type).Given value ↔ JsonType.ofName? (value.string?.getD "") = some type := by
  rw [typeOf_eq_some_iff]
  exact ⟨fun given => given type rfl, fun isName other same => by cases same; exact isName⟩

/-- A rule is read unless it gives a type that has to be known and is not. -/
theorem exists_readRule_iff :
    (∃ constraints, readRule checkTypes field token value = .ok constraints)
      ↔ (checkTypes = true → token = "$type" →
          ∃ type : JsonType, value.string? = some type.name) := by
  by_cases isType : token = "$type"
  · subst isType
    unfold readRule
    rw [if_neg (by decide), if_neg (by decide), if_pos rfl]
    dsimp only
    simp only [← typeOf_eq_some_iff]
    cases JsonType.ofName? (value.string?.getD "") with
    | some type => simp
    | none => cases checkTypes <;> simp
  · unfold readRule
    simp only [isType, if_false, false_implies, implies_true, iff_true]
    split
    · exact ⟨_, rfl⟩
    · split <;> exact ⟨_, rfl⟩

/-- What is read from a rule is what it asks for. -/
theorem mem_readRule (reads : readRule checkTypes field token value = .ok constraints) :
    constraint ∈ constraints ↔ constraint.field = field ∧ constraint.rule.token = token
      ∧ constraint.rule.Given value := by
  obtain ⟨other, rule⟩ := constraint
  unfold readRule at reads
  split at reads
  next isRequired =>
    cases reads
    cases rule <;> simp [isRequired, Rule.token, Rule.Given]
  next notRequired =>
    split at reads
    next isNotNull =>
      cases reads
      cases rule <;> simp [isNotNull, Rule.token, Rule.Given]
    next notNotNull =>
      split at reads
      next isType =>
        dsimp only at reads
        split at reads
        next type found =>
          cases reads
          cases rule with
          | required | notNull => simp [isType, Rule.token]
          | hasType other => simp [isType, Rule.token, given_hasType, found, eq_comm]
        next unknown =>
          split at reads
          · cases reads
          · cases reads
            cases rule with
            | required | notNull => simp [isType, Rule.token]
            | hasType other => simp [isType, Rule.token, given_hasType, unknown]
      next notType =>
        cases reads
        cases rule <;> simp [Rule.token, Ne.symm notRequired, Ne.symm notNotNull, Ne.symm notType]

/-- The rules of a field are read unless there is a type among them that has to be known and is
not. -/
theorem exists_readRules_iff {entries : List (String × Caller.Value)} :
    (∃ constraints, readRules checkTypes field entries = .ok constraints)
      ↔ (checkTypes = true → ∀ value, ("$type", value) ∈ entries →
          ∃ type : JsonType, value.string? = some type.name) := by
  rw [readRules_eq, exists_collected_iff]
  simp only [exists_readRule_iff]
  constructor
  · intro each checked value inside
    exact each _ inside checked rfl
  · rintro known ⟨token, value⟩ inside checked rfl
    exact known checked value inside

theorem mem_readRules {entries : List (String × Caller.Value)}
    (reads : readRules checkTypes field entries = .ok constraints) :
    constraint ∈ constraints ↔ constraint.field = field
      ∧ ∃ value, (constraint.rule.token, value) ∈ entries ∧ constraint.rule.Given value := by
  rw [readRules_eq] at reads
  have readable := exists_collected_iff.mp ⟨_, reads⟩
  rw [mem_collected reads]
  constructor
  · rintro ⟨⟨token, value⟩, inside, part, isPart, member⟩
    obtain ⟨isField, rfl, given⟩ := (mem_readRule isPart).mp member
    exact ⟨isField, value, inside, given⟩
  · rintro ⟨isField, value, inside, given⟩
    obtain ⟨part, isPart⟩ := readable _ inside
    exact ⟨_, inside, part, isPart, (mem_readRule isPart).mpr ⟨isField, rfl, given⟩⟩

/-- **Which specifications are read**: those that fit and, where types have to be known, know
them. -/
theorem exists_readSpec_iff (distinct : spec.Distinct) :
    (∃ constraints, readSpec checkTypes spec = .ok constraints)
      ↔ Fits spec ∧ (checkTypes = true → KnowsTypes spec) := by
  have fields : (∃ constraints, readFields checkTypes spec spec.fields = .ok constraints)
      ↔ (checkTypes = true → KnowsTypes spec) := by
    rw [readFields_eq, exists_collected_iff]
    simp only [exists_readRules_iff]
    constructor
    · rintro each checked field value ⟨rules, inside, hasRule⟩
      exact each _ inside checked value hasRule
    · rintro known ⟨field, rules⟩ inside checked value hasRule
      exact known checked field value ⟨rules, inside, hasRule⟩
  rw [← checkSpecBy_eq_ok_iff Schema.conforms_validate distinct, ← fields, readSpec, readSpecBy]
  cases checkSpecBy Schema.validate spec with
  | ok _ => exact (and_iff_right rfl).symm
  | error refusal => exact iff_of_false (fun ⟨_, reads⟩ => nomatch reads) fun both => nomatch both.1

/-- **What is read from a specification** is what it asks for. -/
theorem mem_readSpec (reads : readSpec checkTypes spec = .ok constraints) :
    constraint ∈ constraints ↔ Requests spec constraint := by
  obtain ⟨_, _, reads⟩ := Caller.bind_eq_ok reads
  rw [readFields_eq] at reads
  have readable := exists_collected_iff.mp ⟨_, reads⟩
  rw [mem_collected reads]
  constructor
  · rintro ⟨⟨field, rules⟩, inside, part, isPart, member⟩
    obtain ⟨rfl, value, isRule, given⟩ := (mem_readRules isPart).mp member
    exact ⟨value, ⟨rules, inside, isRule⟩, given⟩
  · rintro ⟨value, ⟨rules, inside, isRule⟩, given⟩
    obtain ⟨part, isPart⟩ := readable _ inside
    exact ⟨_, inside, part, isPart, (mem_readRules isPart).mpr ⟨rfl, value, isRule, given⟩⟩

end

end Spec

/-!
## Names of constraints

The name of a constraint begins with its field, which may be any text, also one that looks like the
end of a name.  What follows the field tells the rule all the same: no ending of a name that stands
for a rule is an ending of one that stands for another (`Rule.eq_of_ending`).  So a constraint is
known by its name (`Constraint.name_injective`).
-/

/-- Every rule. -/
def Rule.all : List Rule := required :: notNull :: JsonType.all.map hasType

theorem Rule.mem_all (rule : Rule) : rule ∈ all := by
  cases rule with
  | required | notNull => simp [all]
  | hasType type => cases type <;> decide

/-- The characters of a name that follow the field. -/
def Rule.ending (rule : Rule) : List Char := (":" ++ rule.name).toList

/-- No ending is part of another. -/
theorem Rule.eq_of_ending {rule rule' : Rule} (isPart : rule.ending <:+ rule'.ending) :
    rule = rule' := by
  have apart : ∀ first ∈ all, ∀ second ∈ all, first.ending <:+ second.ending → first = second := by
    decide
  exact apart rule rule.mem_all rule' rule'.mem_all isPart

namespace Constraint

theorem toList_name (constraint : Constraint) :
    constraint.name.toList = constraint.field.toList ++ constraint.rule.ending := by
  rw [name, Rule.ending, String.append_assoc, String.toList_append]

/-- **A constraint is known by its name**, whatever its field is. -/
theorem name_injective : Function.Injective name := by
  rintro ⟨field, rule⟩ ⟨field', rule'⟩ same
  have texts : field.toList ++ rule.ending = field'.toList ++ rule'.ending := by
    have texts := congrArg String.toList same
    rwa [toList_name, toList_name] at texts
  have isRule : rule = rule' := by
    have isPart : rule.ending <:+ field'.toList ++ rule'.ending := ⟨_, texts⟩
    rcases List.suffix_or_suffix_of_suffix isPart (List.suffix_append _ _) with part | part
    · exact Rule.eq_of_ending part
    · exact (Rule.eq_of_ending part).symm
  subst isRule
  rw [String.toList_inj.mp (List.append_cancel_right texts)]

end Constraint

end DocStore
