import DocStore.Proofs.Constraint.Spec
/-!
# What comes of a specification

The rules of a specification are read one after another, as they are written (`Spec.written`); each
of a known kind asks for one constraint (`Spec.AsksFor`).  `Spec.settled_by_validator` says what
comes of every specification, whichever conforming validator looks at its shape: it is refused with
one text for all that is wrong with its shape, or its rules become constraints in their order, unless
one is about a type that has to be known and is not.
-/

set_option autoImplicit false

namespace DocStore

namespace Spec

/-! ## The order of reading -/

/-- A rule as it is written for a field. -/
structure Written where
  field : String
  token : String
  value : Caller.Value

/-- The rules of a specification in the order in which they are written. -/
def written (spec : Caller.Value) : List Written :=
  spec.fields.flatMap fun entry =>
    (rulesOf spec entry.2).map fun rule => ⟨entry.1, rule.1, rule.2⟩

/-- The constraints that a rule asks for. -/
def readWritten (checkTypes : Bool) (rule : Written) : Except SpecRefusal (List Constraint) :=
  readRule checkTypes rule.field rule.token rule.value

/-- Whether a rule is about no type, or about one of the types that there are. -/
def isKnown (rule : Written) : Bool :=
  rule.token != "$type" || JsonType.all.any fun type => rule.value.string? == some type.name

/-- What a rule asks for is a constraint on its field. -/
structure AsksFor (rule : Written) (constraint : Constraint) : Prop where
  field : constraint.field = rule.field
  token : constraint.rule.token = rule.token
  given : constraint.rule.Given rule.value

/-- Why a rule is refused whose type is unknown. -/
def refusalOf (rule : Written) : SpecRefusal :=
  .unknownType (rule.value.string?.getD "") rule.field

theorem hasRule_of_mem_written {spec : Caller.Value} {rule : Written} (member : rule ∈ written spec) :
    HasRule spec rule.field rule.token rule.value := by
  simp only [written, List.mem_flatMap, List.mem_map] at member
  obtain ⟨⟨field, rules⟩, inside, ⟨token, value⟩, isRule, rfl⟩ := member
  exact ⟨rules, inside, isRule⟩

section

variable {α β γ ε : Type} {read : α → Except ε (List β)}

theorem collected_cons_ok {element : α} {rest : List α} {first : List β}
    (isFirst : read element = .ok first) :
    collected read (element :: rest) = (collected read rest).map (first ++ ·) := by
  rw [collected, isFirst]
  cases collected read rest <;> rfl

theorem collected_append (list rest : List α) :
    collected read (list ++ rest)
      = (collected read list).bind fun first => (collected read rest).map (first ++ ·) := by
  induction list with
  | nil =>
      show collected read rest = (collected read rest).map _
      cases collected read rest <;> rfl
  | cons element list ih =>
      rw [List.cons_append, collected, collected, ih]
      cases read element with
      | error failure => rfl
      | ok first =>
          cases collected read list with
          | error failure => rfl
          | ok middle =>
              cases collected read rest with
              | error failure => rfl
              | ok last => exact congrArg Except.ok (List.append_assoc first middle last).symm

/-- Reading the parts of each element in turn is reading all parts in turn. -/
theorem collected_flatMap (parts : γ → List α) (list : List γ) :
    collected read (list.flatMap parts) = collected (fun element => collected read (parts element))
      list := by
  induction list with
  | nil => rfl
  | cons element list ih =>
      rw [List.flatMap_cons, collected_append, ih, collected]
      cases collected read (parts element) with
      | error failure => rfl
      | ok first =>
          cases collected (fun element => collected read (parts element)) list <;> rfl

theorem collected_map (change : γ → α) (list : List γ) :
    collected read (list.map change) = collected (fun element => read (change element)) list := by
  induction list with
  | nil => rfl
  | cons element list ih => rw [List.map_cons, collected, collected, ih]

end

/-- A specification is read rule by rule, as it is written. -/
theorem readFields_eq_collected (checkTypes : Bool) (spec : Caller.Value) :
    readFields checkTypes spec spec.fields
      = collected (readWritten checkTypes) (written spec) := by
  rw [readFields_eq, written, collected_flatMap]
  congr 1
  funext entry
  rw [readRules_eq, collected_map]
  rfl

section

variable (checkTypes : Bool) {rule : Written} {rules : List Written}

theorem isKnown_iff : isKnown rule = true ↔
    (rule.token = "$type" → ∃ type : JsonType, rule.value.string? = some type.name) := by
  have listed (type : JsonType) : type ∈ JsonType.all := by cases type <;> decide
  simp [isKnown, List.any_eq_true, listed, imp_iff_not_or]

/-- A rule of a known key asks for one constraint, unless it is about an unknown type. -/
theorem readWritten_of_known (isToken : rule.token ∈ ruleTokens) (known : isKnown rule = true) :
    ∃ constraint, readWritten checkTypes rule = .ok [constraint] ∧ AsksFor rule constraint := by
  obtain ⟨field, token, value⟩ := rule
  simp only [ruleTokens, List.mem_cons, List.not_mem_nil, or_false] at isToken
  rcases isToken with rfl | rfl | rfl
  · exact ⟨⟨field, .required⟩, rfl, rfl, rfl, fun type same => by cases same⟩
  · exact ⟨⟨field, .notNull⟩, rfl, rfl, rfl, fun type same => by cases same⟩
  · obtain ⟨type, isName⟩ := isKnown_iff.mp known rfl
    refine ⟨⟨field, .hasType type⟩, ?_, rfl, rfl, fun _ same => by cases same; exact isName⟩
    have isType : JsonType.ofName? (value.string?.getD "") = some type :=
      typeOf_eq_some_iff.mpr isName
    simp [readWritten, readRule, isType]

theorem readWritten_of_unknown (unknown : isKnown rule = false) :
    readWritten checkTypes rule = if checkTypes then .error (refusalOf rule) else .ok [] := by
  obtain ⟨field, token, value⟩ := rule
  have noName : ¬ isKnown ⟨field, token, value⟩ = true := by simp [unknown]
  rw [isKnown_iff, Classical.not_imp] at noName
  obtain ⟨isType, noName⟩ := noName
  have noType : JsonType.ofName? (value.string?.getD "") = none := by
    cases isName : JsonType.ofName? (value.string?.getD "") with
    | none => rfl
    | some type => exact absurd ⟨type, typeOf_eq_some_iff.mp isName⟩ noName
  dsimp only at isType
  subst isType
  simp [readWritten, readRule, noType, refusalOf]

variable (areTokens : ∀ rule ∈ rules, rule.token ∈ ruleTokens)
include areTokens

/-- Where no types are unknown, each rule asks for one constraint, in the order of the rules. -/
theorem collected_of_known (known : ∀ rule ∈ rules, isKnown rule = true) :
    ∃ constraints, collected (readWritten checkTypes) rules = .ok constraints
      ∧ List.Forall₂ AsksFor rules constraints := by
  induction rules with
  | nil => exact ⟨[], rfl, .nil⟩
  | cons rule rest ih =>
      obtain ⟨others, areOthers, ask⟩ := ih
        (fun other member => areTokens other (List.mem_cons_of_mem _ member))
        fun other member => known other (List.mem_cons_of_mem _ member)
      obtain ⟨constraint, isFirst, asks⟩ := readWritten_of_known checkTypes
        (areTokens rule (by simp)) (known rule (by simp))
      exact ⟨constraint :: others, by rw [collected_cons_ok isFirst, areOthers]; rfl, .cons asks ask⟩

/-- Where types need not be known, the rules about unknown ones ask for nothing. -/
theorem collected_unchecked :
    ∃ constraints, collected (readWritten false) rules = .ok constraints
      ∧ List.Forall₂ AsksFor (rules.filter isKnown) constraints := by
  induction rules with
  | nil => exact ⟨[], rfl, .nil⟩
  | cons rule rest ih =>
      obtain ⟨others, areOthers, ask⟩ :=
        ih fun other member => areTokens other (List.mem_cons_of_mem _ member)
      cases known : isKnown rule with
      | true =>
          obtain ⟨constraint, isFirst, asks⟩ :=
            readWritten_of_known false (areTokens rule (by simp)) known
          refine ⟨constraint :: others, by rw [collected_cons_ok isFirst, areOthers]; rfl, ?_⟩
          rw [List.filter_cons_of_pos known]
          exact .cons asks ask
      | false =>
          have isFirst := readWritten_of_unknown false known
          refine ⟨others, by rw [collected_cons_ok isFirst, areOthers]; rfl, ?_⟩
          rwa [List.filter_cons_of_neg (by simp [known])]

/-- Where types have to be known, the first rule about an unknown one is refused. -/
theorem collected_of_unknown {before after : List Written}
    (isFirst : rules = before ++ rule :: after) (known : ∀ rule ∈ before, isKnown rule = true)
    (unknown : isKnown rule = false) :
    collected (readWritten true) rules = .error (refusalOf rule) := by
  subst isFirst
  obtain ⟨constraints, reads, _⟩ := collected_of_known true
    (fun other member => areTokens other (List.mem_append_left _ member)) known
  rw [collected_append, reads, collected, readWritten_of_unknown true unknown]
  rfl

end

/-! ## What comes of a specification -/

/-- What comes of the shape of a specification, by what a validator tells. -/
def validated (validate : Validator) (spec : Caller.Value) : Except Failure Unit :=
  (checkSpecBy validate spec).mapError fun refusal => .ofInput (.spec refusal)

/-- What comes of a specification whose shape a validator looks at. -/
def parsed (validate : Validator) (checkTypes : Bool) (spec : Caller.Value) :
    Except Failure (List Constraint) :=
  (readSpecBy validate checkTypes spec).mapError fun refusal => .ofInput (.spec refusal)

/-- What a validator makes of a specification. -/
structure Settles (validate : Validator) (spec : Caller.Value) : Prop where
  /-- It is accepted exactly when it fits. -/
  accepts : validated validate spec = .ok () ↔ Fits spec
  /-- Otherwise the input is refused with one text for all that is wrong with its shape: what is said
  about each thing, but nothing twice. -/
  refuses : ∀ failure, validated validate spec = .error failure →
    ∃ refusal texts, failure = .ofInput (.spec refusal) ∧ texts.Nodup
      ∧ (∀ text, text ∈ texts ↔ ∃ fault, Offends spec fault ∧ fault.message = text)
      ∧ failure.message = String.intercalate "; " texts
  /-- What is refused for its shape is not read. -/
  unread : ∀ checkTypes failure, validated validate spec = .error failure →
    parsed validate checkTypes spec = .error failure
  /-- A specification that fits and names no unknown type asks for one constraint by each rule, in
  the order of the rules. -/
  reads : Fits spec → (∀ rule ∈ written spec, isKnown rule = true) →
    ∃ constraints, parsed validate true spec = .ok constraints
      ∧ List.Forall₂ AsksFor (written spec) constraints
  /-- If it names unknown types the input is refused for the first one. -/
  names : Fits spec → ∀ before rule after, written spec = before ++ rule :: after →
    (∀ earlier ∈ before, isKnown earlier = true) → isKnown rule = false →
    parsed validate true spec = .error (.ofInput (.spec (refusalOf rule)))
  /-- Where names of types are not checked, the rules about unknown types are left out. -/
  leaves : Fits spec → ∃ constraints, parsed validate false spec = .ok constraints
    ∧ List.Forall₂ AsksFor ((written spec).filter isKnown) constraints

theorem nodup_eraseDups {α : Type} [DecidableEq α] (list : List α) : list.eraseDups.Nodup := by
  induction size : list.length using Nat.strong_induction_on generalizing list with
  | _ size ih =>
      cases list with
      | nil => simp
      | cons element rest =>
          rw [List.eraseDups_cons, List.nodup_cons, List.mem_eraseDups]
          refine ⟨by simp, ih _ ?_ _ rfl⟩
          rw [← size, List.length_cons]
          exact Nat.lt_succ_of_le (List.length_filter_le _ _)

theorem message_ne_empty (fault : SpecFault) : fault.message ≠ "" := by
  have starts {start rest : String} (some : start ≠ "") : start ++ rest ≠ "" :=
    fun empty => some (String.append_eq_empty_iff.mp empty).1
  cases fault with
  | notMapping => show "Constraint spec must be an object mapping field names to rules" ≠ ""; simp
  | rulesNotObject field =>
      show "Constraint rules for field \"" ++ field ++ "\" must be an object" ≠ ""
      exact starts (starts (by simp))
  | unknownRule token field =>
      show "Unknown constraint rule \"" ++ token ++ "\" for field \"" ++ field ++ "\"" ≠ ""
      exact starts (starts (starts (starts (by simp))))
  | typeNotString field =>
      show "$type for field \"" ++ field ++ "\" must be a string naming a JSON type" ≠ ""
      exact starts (starts (by simp))

/-- Faults are told by all their texts. -/
theorem messages_eq {faults : List SpecFault} (some : faults ≠ []) :
    SpecFault.messages faults
      = String.intercalate "; " (faults.map SpecFault.message).eraseDups := by
  refine if_neg ?_
  cases faults with
  | nil => exact absurd rfl some
  | cons fault rest =>
      rw [List.map_cons, List.eraseDups_cons]
      cases ((rest.map SpecFault.message).filter fun text => !text == fault.message).eraseDups with
      | nil => simpa using message_ne_empty fault
      | cons next others =>
          rw [String.intercalate_cons_cons]
          simp [message_ne_empty fault]

section

variable {validate : Validator} {spec : Caller.Value}

theorem validated_eq_ok_iff : validated validate spec = .ok () ↔ checkSpecBy validate spec = .ok () := by
  rw [validated]
  cases checkSpecBy validate spec with
  | ok => exact iff_of_true rfl rfl
  | error => exact iff_of_false nofun nofun

theorem validated_eq_error {failure : Failure} (refused : validated validate spec = .error failure) :
    ∃ refusal, checkSpecBy validate spec = .error refusal ∧ failure = .ofInput (.spec refusal) := by
  rw [validated] at refused
  cases checked : checkSpecBy validate spec with
  | ok => rw [checked] at refused; cases refused
  | error refusal => rw [checked] at refused; cases refused; exact ⟨refusal, rfl, rfl⟩

/-- What has the right shape is read rule by rule. -/
theorem parsed_of_ok (isOk : checkSpecBy validate spec = .ok ()) (checkTypes : Bool) :
    parsed validate checkTypes spec
      = (collected (readWritten checkTypes) (written spec)).mapError
          fun refusal => .ofInput (.spec refusal) := by
  rw [parsed, readSpecBy, isOk, ← readFields_eq_collected]
  rfl

end

/-- **What comes of a specification**, whichever conforming validator looks at its shape. -/
theorem settled_by_validator {validate : Validator} (conforms : validate.Conforms)
    {spec : Caller.Value} (distinct : spec.Distinct) : Settles validate spec := by
  have accepts := checkSpecBy_eq_ok_iff conforms distinct
  have areTokens (fits : Fits spec) : ∀ rule ∈ written spec, rule.token ∈ ruleTokens :=
    fun rule member => fits.tokens _ _ _ (hasRule_of_mem_written member)
  refine ⟨validated_eq_ok_iff.trans accepts, fun failure refused => ?_,
    fun checkTypes failure refused => ?_, fun fits known => ?_,
    fun fits before rule after isFirst known unknown => ?_, fun fits => ?_⟩
  · obtain ⟨refusal, isRefusal, rfl⟩ := validated_eq_error refused
    obtain ⟨faults, rfl, wrong⟩ := checkSpecBy_eq_error conforms distinct isRefusal
    refine ⟨_, (faults.map SpecFault.message).eraseDups, rfl, nodup_eraseDups _, fun text => ?_,
      messages_eq ?_⟩
    · rw [List.mem_eraseDups, List.mem_map]
      simp only [wrong]
    · rintro rfl
      have fits : Fits spec := fits_iff.mpr fun fault offends => nomatch (wrong fault).mpr offends
      rw [accepts.mpr fits] at isRefusal
      cases isRefusal
  · obtain ⟨refusal, isRefusal, rfl⟩ := validated_eq_error refused
    rw [parsed, readSpecBy, isRefusal]
    rfl
  · obtain ⟨constraints, reads, ask⟩ := collected_of_known true (areTokens fits) known
    exact ⟨constraints, by rw [parsed_of_ok (accepts.mpr fits), reads]; rfl, ask⟩
  · rw [parsed_of_ok (accepts.mpr fits),
      collected_of_unknown (areTokens fits) isFirst known unknown]
    rfl
  · obtain ⟨constraints, reads, ask⟩ := collected_unchecked (areTokens fits)
    exact ⟨constraints, by rw [parsed_of_ok (accepts.mpr fits), reads]; rfl, ask⟩

/-- A specification that holds itself; its fields and keys have characters with a meaning in pointers,
and one field looks like a rule. -/
def crooked : Caller.Value :=
  .object false [("a/b", .array []), ("~1", .object false [("$/~0", .absent), ("$type", .integer 1)]),
    ("$type", .enclosing 1)]

/-- A specification that fits, with a type that is there without a value. -/
def straight : Caller.Value :=
  .object false [("~0/", .object true [("$type", .ofString "array"), ("$notnull", .function)]),
    ("", .object false [("$type", .absent)]), ("x", .object false [("$required", .absent)])]

theorem distinct_crooked : crooked.Distinct := by
  refine .object (by decide) fun field member => ?_
  simp only [List.mem_cons, List.not_mem_nil, or_false] at member
  rcases member with rfl | rfl | rfl
  · exact .array (by simp)
  · refine .object (by decide) fun field member => ?_
    simp only [List.mem_cons, List.not_mem_nil, or_false] at member
    rcases member with rfl | rfl <;> exact .other nofun nofun
  · exact .other nofun nofun

theorem distinct_straight : straight.Distinct := by
  refine .object (by decide) fun field member => ?_
  simp only [List.mem_cons, List.not_mem_nil, or_false] at member
  rcases member with rfl | rfl | rfl <;>
  · refine .object (by decide) fun field member => ?_
    simp only [List.mem_cons, List.not_mem_nil, or_false] at member
    rcases member with rfl | rfl <;> exact .other nofun nofun

/-- The names of fields and keys are told as they are. -/
theorem crooked_and_straight : Schema.validate.Conforms ∧ crooked.Distinct ∧ straight.Distinct
    ∧ Settles Schema.validate crooked ∧ Settles Schema.validate straight
    ∧ (validated Schema.validate crooked).mapError Failure.message = .error
        ("Constraint rules for field \"a/b\" must be an object; "
          ++ "Unknown constraint rule \"$/~0\" for field \"~1\"; "
          ++ "$type for field \"~1\" must be a string naming a JSON type; "
          ++ "Unknown constraint rule \"a/b\" for field \"$type\"; "
          ++ "Unknown constraint rule \"~1\" for field \"$type\"; "
          ++ "$type for field \"$type\" must be a string naming a JSON type")
    ∧ validated Schema.validate straight = .ok ()
    ∧ parsed Schema.validate true straight = .error (.ofInput (.spec (.unknownType "" "")))
    ∧ parsed Schema.validate false straight
      = .ok [⟨"~0/", .hasType .array⟩, ⟨"~0/", .notNull⟩, ⟨"x", .required⟩] :=
  ⟨Schema.conforms_validate, distinct_crooked, distinct_straight,
    settled_by_validator Schema.conforms_validate distinct_crooked,
    settled_by_validator Schema.conforms_validate distinct_straight, by decide +kernel,
    by decide +kernel, by decide +kernel, by decide +kernel⟩

end Spec

end DocStore
