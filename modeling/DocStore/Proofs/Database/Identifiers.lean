import DocStore.Proofs.Caller.Untold
import DocStore.Proofs.Database.Beginnings
import DocStore.Proofs.Database.Lasting
import DocStore.Proofs.Database.Writes
import DocStore.Proofs.Host.Faults
/-!
# Identifiers of documents

An identifier is a text; one that a generator gives is not empty either.  Any other value is refused
with a failure that shows the value, as a failure of the generator or as refused input.  Such a
failure can only be made of a value that can be told, though, and a generator's value is told by its
text form alone.  So some values are refused with neither failure: from a generator those without a
text form (`check_eq_illTyped_iff`), and from a caller those that have no JSON form either
(`ofValue_eq_illTyped_iff`).

Nothing is kept, found or removed for a value that is refused (`insertLocked_of_error`,
`perform_byId_of_not_text`).  Where a generated identifier stands in its document is told in the
second part.
-/

set_option autoImplicit false

namespace DocStore

theorem Caller.Value.isString_or_not (value : Value) :
    (∃ text, value = .ofString text) ∨ value.string? = none := by
  cases value with
  | scalar scalar =>
      cases scalar with
      | string text => exact .inl ⟨text, rfl⟩
      | _ => exact .inr rfl
  | _ => exact .inr rfl

namespace Identifier

open Caller (Textless Unwritable)

/-! ## Identifiers from a generator -/

theorem check_ofString (text : String) :
    check (.value (.ofString text))
      = if text = "" then .error (.ofFault (.idGeneration (.unusable ""))) else .ok text := rfl

theorem check_of_not_text {value : Caller.Value} (noText : value.string? = none) :
    check (.value value) = match Caller.text? value with
      | some shown => .error (.ofFault (.idGeneration (.unusable shown)))
      | none => .error .illTyped := by
  cases isText : Caller.text? value <;> simp only [check, noText, isText]

/-- What a generator gives is used exactly if it is a text that is not empty. -/
theorem check_eq_ok_iff {generated : Generated} {id : String} :
    check generated = .ok id ↔ id ≠ "" ∧ generated = .value (.ofString id) := by
  constructor
  · intro isOk
    cases generated with
    | throws message => cases isOk
    | refuses message => cases isOk
    | value value =>
        rcases value.isString_or_not with ⟨text, rfl⟩ | noText
        · rw [check_ofString] at isOk
          split at isOk
          · cases isOk
          next notEmpty =>
            cases isOk
            exact ⟨notEmpty, rfl⟩
        · rw [check_of_not_text noText] at isOk
          split at isOk <;> cases isOk
  · rintro ⟨notEmpty, rfl⟩
    exact if_neg notEmpty

/-- **A generator's value without a text form is not told**: the failure is that it has none. -/
theorem check_eq_illTyped_iff {generated : Generated} :
    check generated = .error .illTyped ↔ ∃ value, generated = .value value ∧ Textless value := by
  constructor
  · intro isError
    cases generated with
    | throws message => cases isError
    | refuses message => cases isError
    | value value =>
        refine ⟨value, rfl, ?_⟩
        rcases value.isString_or_not with ⟨text, rfl⟩ | noText
        · rw [check_ofString] at isError
          split at isError <;> cases isError
        · rw [check_of_not_text noText] at isError
          split at isError
          · cases isError
          next isNone => exact Caller.text?_eq_none_iff.mp isNone
  · rintro ⟨value, rfl, textless⟩
    have noText : value.string? = none := by
      cases textless <;> rfl
    rw [check_of_not_text noText, Caller.text?_eq_none_iff.mpr textless]

/-- **Every other failure is one of the generator.** -/
theorem kind?_of_check {generated : Generated} {failure : Failure}
    (fails : check generated = .error failure) (told : failure ≠ .illTyped) :
    failure.kind? = some .idGeneration := by
  cases generated with
  | throws message => cases fails; rfl
  | refuses message => cases fails; rfl
  | value value =>
      rcases value.isString_or_not with ⟨text, rfl⟩ | noText
      · rw [check_ofString] at fails
        split at fails <;> cases fails
        rfl
      · rw [check_of_not_text noText] at fails
        split at fails <;> cases fails
        · rfl
        · exact absurd rfl told

/-! ## Identifiers from a caller -/

theorem ofValue_of_not_text {value : Caller.Value} (noText : value.string? = none) :
    ofValue value = match Caller.describe? value with
      | some shown => .error (.ofInput (.identifier shown))
      | none => .error .illTyped := by
  cases isShown : Caller.describe? value <;> simp only [ofValue, noText, isShown]

/-- **A caller's value is not told exactly when it has neither form.** -/
theorem ofValue_eq_illTyped_iff {value : Caller.Value} :
    ofValue value = .error .illTyped ↔ Unwritable value ∧ Textless value := by
  rw [← Caller.describe?_eq_none_iff]
  rcases value.isString_or_not with ⟨text, rfl⟩ | noText
  · simp only [ofValue, Caller.Value.ofString, Caller.Value.string?, reduceCtorEq, false_iff]
    rw [Caller.describe?_eq_none_iff]
    rintro ⟨_, _ | _ | _⟩
  · rw [ofValue_of_not_text noText]
    cases Caller.describe? value <;> simp [Failure.ofInput, Failure.ofFault]

/-- **Every other value that is not a text is refused as input**, and so is told. -/
theorem ofValue_of_told {value : Caller.Value} (noText : value.string? = none)
    (told : ¬ (Unwritable value ∧ Textless value)) :
    ∃ shown, Caller.describe? value = some shown
      ∧ ofValue value = .error (.ofInput (.identifier shown)) := by
  rw [← Caller.describe?_eq_none_iff] at told
  obtain ⟨shown, isShown⟩ := Option.ne_none_iff_exists'.mp told
  exact ⟨shown, isShown, by rw [ofValue_of_not_text noText, isShown]⟩

end Identifier

namespace Database

open Caller (Textless Unwritable)

/-! ## Operations with an identifier that is refused -/

/-- Where a generator's value is refused, no document is kept: the generator is asked, others go on,
and nothing else is asked before the failure. -/
theorem insertLocked_of_error {collection : String} {fields : List (String × Json)}
    (noId : givenId? fields = none) {generated : Identifier.Generated} {failure : Failure}
    (fails : Identifier.check generated = .error failure) :
    (Documents.insertLocked collection fields).toProgram.Leaves
      [⟨.generate, generated⟩, ⟨.giveWay, ()⟩] (.done (.error failure)) := by
  rw [Documents.insertLocked, noId]
  refine .next ?_
  simp only [Program.done_bind, ExceptT.bindCont, fails]
  exact .next (.nothing _)

theorem perform_byId_of_error {collection id : Caller.Value} {name : String} {failure : Failure}
    (isName : checkedName collection = .ok name)
    (fails : Identifier.ofValue id = .error failure) :
    perform (.findOneById collection id) = .ofExcept (.error failure)
      ∧ perform (.removeOneById collection id) = .ofExcept (.error failure) := by
  rw [perform, perform, named, named, isName]
  constructor
  · show (Attempt.ofExcept (Identifier.ofValue id) >>= Documents.findById name) = _
    rw [fails]
    rfl
  · show (Attempt.ofExcept (Identifier.ofValue id) >>= Documents.removeById name) = _
    rw [fails]
    rfl

/-- **A value that is not a text finds and removes nothing**, and nothing is asked for it. -/
theorem perform_byId_of_not_text {collection id : Caller.Value} {name : String}
    (isName : checkedName collection = .ok name) (noText : id.string? = none) :
    ∃ failure, perform (.findOneById collection id) = .ofExcept (.error failure)
      ∧ perform (.removeOneById collection id) = .ofExcept (.error failure)
      ∧ (failure = .illTyped ∧ Unwritable id ∧ Textless id
        ∨ ∃ shown, failure = .ofInput (.identifier shown) ∧ Caller.describe? id = some shown) := by
  by_cases told : Unwritable id ∧ Textless id
  · obtain ⟨finds, removes⟩ := perform_byId_of_error isName
      (Identifier.ofValue_eq_illTyped_iff.mpr told)
    exact ⟨.illTyped, finds, removes, .inl ⟨rfl, told⟩⟩
  · obtain ⟨shown, isShown, refused⟩ := Identifier.ofValue_of_told noText told
    obtain ⟨finds, removes⟩ := perform_byId_of_error isName refused
    exact ⟨_, finds, removes, .inr ⟨shown, rfl, isShown⟩⟩

end Database

end DocStore

/-!
## Documents with a generated identifier

A document that gives no identifier gets one from the generator, and the identifier is added as its
first field.  An object does not list its fields as they were added, though: keys that are the
decimal texts of numbers come first (`Fields.inKeyOrder_eq_append`).  So the identifier stands after
those keys and before all others (`withId_eq_append`), and it leads the document exactly when there
are none (`withId_eq_cons_iff`).  `Begins.finds_generated` says that the document is found just so
once it has been written; over a storage in memory nothing else is done to it.
-/

namespace DocStore

namespace Fields

variable {β : Type}

/-- Whether an object lists a field among the numbers. -/
def isIndexed (field : String × β) : Bool :=
  (indexKey? field.1).isSome

theorem keyBefore_eq_isIndexed (head : String × β) {key : String} (named : indexKey? key = none) :
    keyBefore head.1 key = isIndexed head := by
  rw [keyBefore, named, isIndexed]
  cases indexKey? head.1 <;> rfl

/-- Every field is inserted in front of the names. -/
theorem insert_append_names (field : String × β) (numbers : List (String × β))
    {names : List (String × β)} (each : ∀ name ∈ names, isIndexed name = false) :
    Sorting.insert (fun first second => keyBefore first.1 second.1) field (numbers ++ names)
      = Sorting.insert (fun first second => keyBefore first.1 second.1) field numbers ++ names := by
  induction numbers with
  | nil =>
      refine Sorting.insert_eq_cons fun name member => ?_
      have named : indexKey? name.1 = none := by
        simpa [isIndexed] using each name member
      rw [keyBefore, named]
  | cons head rest ih =>
      rw [List.cons_append, Sorting.insert, Sorting.insert, ih]
      split <;> rfl

/-- A name is inserted after all numbers. -/
theorem insert_name {field : String × β} (named : indexKey? field.1 = none)
    {numbers : List (String × β)} (each : ∀ number ∈ numbers, isIndexed number = true) :
    Sorting.insert (fun first second => keyBefore first.1 second.1) field numbers
      = numbers ++ [field] := by
  induction numbers with
  | nil => rfl
  | cons head rest ih =>
      have first : keyBefore head.1 field.1 = true := by
        rw [keyBefore_eq_isIndexed head named]
        exact each head List.mem_cons_self
      rw [Sorting.insert, if_pos first, ih fun number member =>
        each number (List.mem_cons_of_mem _ member), List.cons_append]

/-- **An object lists the numbers among its keys first**, in their order, and then all other keys as
they were added. -/
theorem inKeyOrder_eq_append (fields : List (String × β)) :
    inKeyOrder fields
      = inKeyOrder (fields.filter isIndexed) ++ fields.filter fun field => !isIndexed field := by
  have numbers (rest : List (String × β)) :
      ∀ number ∈ inKeyOrder (rest.filter isIndexed), isIndexed number = true := fun number member =>
    (List.mem_filter.mp ((inKeyOrder_perm _).mem_iff.mp member)).2
  have names (rest : List (String × β)) :
      ∀ name ∈ rest.filter (fun field => !isIndexed field), isIndexed name = false :=
    fun name member => by simpa using (List.mem_filter.mp member).2
  induction fields with
  | nil => rfl
  | cons field rest ih =>
      have inserts : inKeyOrder (field :: rest)
          = Sorting.insert (fun first second => keyBefore first.1 second.1) field
            (inKeyOrder rest) := rfl
      rw [inserts, ih]
      cases kind : isIndexed field with
      | true =>
          rw [insert_append_names field _ (names rest), List.filter_cons_of_pos kind,
            List.filter_cons_of_neg (by simp [kind])]
          rfl
      | false =>
          have named : indexKey? field.1 = none := by simpa [isIndexed] using kind
          rw [insert_append_names field _ (names rest), insert_name named (numbers rest),
            List.append_assoc, List.filter_cons_of_neg (by simp [kind]),
            List.filter_cons_of_pos (by simp [kind])]
          rfl

end Fields

namespace Database

open Fields (isIndexed)
open Host (Machine)

/-! ## Where the identifier stands -/

theorem not_isIndexed_idField (value : Json) : isIndexed (idField, value) = false := by
  rw [isIndexed, show Fields.indexKey? idField = none by decide +kernel]
  rfl

/-- A generated identifier stands between the numbers among the keys and all other keys. -/
theorem withId_eq_append (id : String) (fields : List (String × Json)) :
    withId id fields
      = Fields.inKeyOrder (fields.filter isIndexed)
        ++ (idField, Json.string id) :: fields.filter fun field => !isIndexed field := by
  have named := not_isIndexed_idField (Json.string id)
  rw [withId, Fields.inKeyOrder_eq_append, List.filter_cons_of_neg (by simp [named]),
    List.filter_cons_of_pos (by simp [named])]

example : withId "a" [("1", .object []), ("b", .array [])]
    = [("1", .object []), ("_id", Json.string "a"), ("b", .array [])] := by decide +kernel

/-- **A generated identifier leads the document** exactly when no key is the text of a number. -/
theorem withId_eq_cons_iff (id : String) (fields : List (String × Json)) :
    withId id fields = (idField, Json.string id) :: fields
      ↔ ∀ field ∈ fields, Fields.indexKey? field.1 = none := by
  rw [withId_eq_append]
  constructor
  · intro leads field member
    by_contra isNumber
    have indexed : isIndexed field = true := by
      rwa [isIndexed, Option.isSome_iff_ne_none]
    have listed : field ∈ Fields.inKeyOrder (fields.filter isIndexed) :=
      (Fields.inKeyOrder_perm _).mem_iff.mpr (List.mem_filter.mpr ⟨member, indexed⟩)
    cases numbers : Fields.inKeyOrder (fields.filter isIndexed) with
    | nil =>
        rw [numbers] at listed
        cases listed
    | cons head rest =>
        -- The first number would be the identifier.
        rw [numbers, List.cons_append] at leads
        have isHead : head ∈ Fields.inKeyOrder (fields.filter isIndexed) :=
          numbers ▸ List.mem_cons_self
        have first := (List.mem_filter.mp ((Fields.inKeyOrder_perm _).mem_iff.mp isHead)).2
        rw [(List.cons.inj leads).1, not_isIndexed_idField] at first
        cases first
  · intro named
    have names : ∀ field ∈ fields, isIndexed field = false := fun field member => by
      rw [isIndexed, named field member]
      rfl
    have noNumbers : fields.filter isIndexed = [] :=
      List.filter_eq_nil_iff.mpr fun field member => by simp [names field member]
    have allNames : fields.filter (fun field => !isIndexed field) = fields :=
      List.filter_eq_self.mpr fun field member => by simp [names field member]
    rw [noNumbers, allNames]
    rfl

/-! ## At every moment -/

namespace Session

section

variable {session : Session} {machine : Machine} {keeper : Keeper}
  (begins : session.Begins machine keeper)
include begins

/-- **A document that gives no identifier is found under the generated one**, at every moment of a
history and however it has been written: with the identifier among its fields, where
`withId_eq_append` tells. -/
theorem Begins.finds_generated {operations : List Operation}
    (distinct : ∀ operation ∈ operations, operation.Distinct) {operation : Operation}
    (isDistinct : operation.Distinct) {document : Caller.Value}
    (writes : operation.document? = some document) {fields : List (String × Json)}
    (isNormal : Caller.normalObject "Document" document = .ok (.object fields))
    (noId : fields.lookup idField = none) {name id : String}
    (wrote : operation.Wrote name id
      ((session.after machine operations).attempt (session.perform operation)).1) :
    ((session.after machine (operations ++ [operation])).attempt
        (session.perform (.findOneById (.ofString name) (.ofString id)))).1
      = .ok (some (keeper.shown (.object (withId id fields)))) := by
  have distinctAfter : ∀ other ∈ operations ++ [operation], other.Distinct := fun other member => by
    rcases List.mem_append.mp member with before | last
    · exact distinct other before
    · exact List.mem_singleton.mp last ▸ isDistinct
  rw [begins.attempt_eq distinct isDistinct] at wrote
  rw [begins.attempt_eq distinctAfter
    (show Operation.Distinct (.findOneById (.ofString name) (.ofString id)) from trivial),
    reached_concat]
  have named : Files.Named name := by
    cases operation with
    | insert | save => exact named_of_checkedName wrote.1
    | _ => exact wrote.elim
  obtain ⟨document', isGiven, record, writes', isRecord, has⟩ :=
    exists_has_of_wrote isDistinct wrote
  obtain rfl := Option.some.inj (writes'.symm.trans writes)
  -- The record has the generated identifier, as the document gives none.
  have isWithId : record = .object (withId id fields) := by
    cases isRecord with
    | given isNormal' isId =>
        cases isNormal.symm.trans isNormal'
        cases noId.symm.trans isId
    | generated isNormal' =>
        cases isNormal.symm.trans isNormal'
        rfl
  have isId : Identifier.ofValue (.ofString id) = .ok id := rfl
  rw [outcome, checkedName_ofString named, isId]
  refine congrArg Except.ok ?_
  rw [found?, has.found, Option.filter_some, if_pos (beq_iff_eq.mpr has.isId), isWithId]
  rfl

end

end Session

end Database

end DocStore
