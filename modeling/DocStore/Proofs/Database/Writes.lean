import DocStore.Proofs.Caller.Plain
import DocStore.Proofs.Database.Beginnings
import DocStore.Proofs.Files.Keys
/-!
# Writing a document

What comes of inserting or saving a document is one of a few cases, which exclude each other
(`Written`): the document is refused, no identifier is generated, the record breaks a constraint in
force, its identifier is taken, or the record is kept, as a new one or in the place of an old one.
`Session.written` says which case it is at every moment of a history, over either storage.

A write first creates its collection.  Where the collection is new it has no constraints and no
documents, so nothing is broken and nothing is taken there (`opened_of_broken`, `opened_of_stored`):
only the generation of an identifier can fail after the creation, and only then an empty collection
is left.
-/

set_option autoImplicit false

namespace DocStore

open Files (Apart Named keyName)
open Host (Machine)

/-- The kind of a failure of the database. -/
def Failure.kind? : Failure → Option FaultKind
  | .database error => some error.fault.kind
  | _ => none

namespace Content

variable {β : Type}

/-- Putting a value under a key that is there takes the place of the entry of the key. -/
theorem exists_put_of_lookup {key : String} {old : β} (value : β) {entries : List (String × β)}
    (found : entries.lookup key = some old) :
    ∃ rest, entries.Perm ((key, old) :: rest)
      ∧ (Content.json.put key value entries).Perm ((key, value) :: rest) := by
  induction entries with
  | nil => cases found
  | cons entry entries ih =>
      obtain ⟨head, first⟩ := entry
      by_cases isHead : head = key
      · subst isHead
        rw [List.lookup_cons_self, Option.some.injEq] at found
        subst found
        exact ⟨entries, .refl _, by simp [put, same]⟩
      · have other : (key == head) = false := beq_eq_false_iff_ne.mpr (Ne.symm isHead)
        rw [List.lookup_cons, other] at found
        obtain ⟨rest, before, after⟩ := ih found
        rw [put, if_neg (by simpa [same] using isHead)]
        exact ⟨(head, first) :: rest, (before.cons _).trans (.swap _ _ _),
          (after.cons _).trans (.swap _ _ _)⟩

end Content

namespace Database

/-! ## Documents that are refused -/

/-- A document that cannot be kept: it has no normal form that is an object, or an identifier that
is no text. -/
inductive Unfit (document : Caller.Value) : Prop where
  | misfit {misfit : Caller.Misfit}
      (isMisfit : Caller.normalObject "Document" document = .error misfit)
  | identifier {fields : List (String × Json)} {id : Json}
      (isNormal : Caller.normalObject "Document" document = .ok (.object fields))
      (isId : fields.lookup idField = some id) (noText : Json.string? id = none)

theorem exists_fields_of_normalObject {label : String} {value : Caller.Value} {form : Json}
    (isForm : Caller.normalObject label value = .ok form) :
    ∃ fields, form = .object fields := by
  rw [Caller.normalObject] at isForm
  split at isForm
  next isObject =>
    cases value <;> try cases isObject
    case object bare fields =>
      obtain ⟨forms, _, isForm⟩ := Caller.bind_eq_ok isForm
      cases isForm
      exact ⟨forms, rfl⟩
    all_goals cases isForm
  · cases isForm

/-- Every JSON value can be shown in a message. -/
theorem describe?_ofJson (value : Json) :
    Caller.describe? (Caller.ofJson value) = some (Json.text .line value) := by
  have form : (Caller.View.ofValue (Caller.ofJson value)).plain = .ok (some value) :=
    Caller.plainWithin_ofJson Caller.momentJson value _ [] rfl (Nat.le_succ _) (by simp)
  rw [Caller.describe?, Caller.jsonText, Caller.View.jsonText, form]
  rfl

theorem ofValue_ofJson (value : Json) :
    Identifier.ofValue (Caller.ofJson value)
      = match Json.string? value with
        | some text => .ok text
        | none => .error (.ofInput (.identifier (Json.text .line value))) := by
  have sameText : (Caller.ofJson value).string? = Json.string? value := by
    cases value with
    | leaf scalar => cases scalar <;> rfl
    | array _ | object _ => rw [Caller.ofJson]; rfl
  rewrite [Identifier.ofValue, sameText, describe?_ofJson]
  cases Json.string? value <;> rfl

/-- A body is what a document is in normal form, unless the document cannot be kept. -/
theorem body_cases (document : Caller.Value) :
    (Unfit document ∧ ∃ failure, body document = .error failure ∧ failure.kind? = some .input)
      ∨ (¬ Unfit document ∧ ∃ fields, Caller.normalObject "Document" document = .ok (.object fields)
        ∧ body document = .ok fields) := by
  rw [body]
  cases isNormal : Caller.normalObject "Document" document with
  | error misfit => exact .inl ⟨.misfit isNormal, _, rfl, rfl⟩
  | ok form =>
      obtain ⟨fields, rfl⟩ := exists_fields_of_normalObject isNormal
      have fit (isText : ∀ id, fields.lookup idField = some id → Json.string? id ≠ none) :
          ¬ Unfit document := by
        rintro (isMisfit | ⟨isNormal', isId, noText⟩)
        · cases isNormal.symm.trans isMisfit
        · cases isNormal.symm.trans isNormal'
          exact isText _ isId noText
      have bound : ∀ next : Json → Except Failure (List (String × Json)),
          ((Except.ok (Tree.object fields) : Except Caller.Misfit Json).mapError
            (fun misfit => Failure.ofInput (.misfit misfit)) >>= next) = next (.object fields) :=
        fun _ => rfl
      rw [bound]
      dsimp only
      cases isId : fields.lookup idField with
      | none => exact .inr ⟨fit (by simp [isId]), fields, rfl, rfl⟩
      | some id =>
          dsimp only
          rw [ofValue_ofJson]
          cases isText : Json.string? id with
          | none => exact .inl ⟨.identifier isNormal isId isText, _, rfl, rfl⟩
          | some text => exact .inr ⟨fit (by simp [isId, isText]), fields, rfl, rfl⟩

/-! ## Identifiers that are refused -/

/-- What a generator may give instead of an identifier: a failure, the empty text, or a value that
is nothing, a truth value or a number. -/
inductive Unusable : Identifier.Generated → Prop where
  | throws (message : String) : Unusable (.throws message)
  | refuses (message : String) : Unusable (.refuses message)
  | empty : Unusable (.value (.ofString ""))
  | absent : Unusable (.value .absent)
  | null : Unusable (.value (.scalar .null))
  | boolean (value : Bool) : Unusable (.value (.scalar (.boolean value)))
  | number (value : Number) : Unusable (.value (.scalar (.number value)))

theorem kind?_of_unusable {generated : Identifier.Generated} (unusable : Unusable generated) :
    ∃ failure, Identifier.check generated = .error failure
      ∧ failure.kind? = some .idGeneration := by
  cases unusable <;> exact ⟨_, rfl, rfl⟩

/-! ## What a write comes to -/

/-- The identifier and the record that a document becomes, whether the document gives the identifier
or a generator does. -/
inductive Records (document : Caller.Value) (generated : Identifier.Generated) :
    Bool → String → Json → Prop
  | given {fields : List (String × Json)} {id : String}
      (isNormal : Caller.normalObject "Document" document = .ok (.object fields))
      (isId : fields.lookup idField = some (Json.string id)) :
      Records document generated true id (.object fields)
  | generated {fields : List (String × Json)} {id : String}
      (isNormal : Caller.normalObject "Document" document = .ok (.object fields))
      (noId : fields.lookup idField = none) (isUsable : Identifier.check generated = .ok id) :
      Records document generated false id (.object (withId id fields))

namespace Contents

/-- Whether a document of an identifier is stored. -/
def Stores (contents : Contents) (name id : String) : Prop :=
  ∃ document ∈ contents.documents name, FileStore.documentId? document = some id

/-- The identifiers of a collection and of a record to be written. -/
def idsWith (contents : Contents) (name : String) (document : Caller.Value)
    (generated : Identifier.Generated) : Set String :=
  { id | contents.Stores name id ∨ ∃ isGiven record, Records document generated isGiven id record }

/-- The contents with a collection created. -/
def opened (contents : Contents) (name : String) : Contents :=
  if name ∈ contents.collections then contents
  else { contents with collections := Sorting.sort Text.before (name :: contents.collections) }

/-- The contents differ in the documents of one collection alone, which are a record next to some
others; the record is told up to likeness. -/
structure Puts (before : Contents) (name : String) (record : Json) (others : List Json)
    (after : Contents) : Prop where
  constraints : after.constraints = before.constraints
  elsewhere : ∀ other, other ≠ name → after.documents other = before.documents other
  documents : ∃ shown, Json.Alike record shown ∧ (after.documents name).Perm (shown :: others)

end Contents

/-- What comes of writing a document, by an insertion or by saving, which replaces. -/
inductive Written (replaces : Bool) (name : String) (document : Caller.Value)
    (generated : Identifier.Generated) (before after : Contents) : Except Failure String → Prop
  /-- The document cannot be kept. -/
  | unfit {failure : Failure} (unfit : Unfit document) (kind : failure.kind? = some .input)
      (unchanged : after = before) : Written replaces name document generated before after
        (.error failure)
  /-- The document gives no identifier and none is generated. -/
  | withoutId {fields : List (String × Json)} {failure : Failure}
      (isNormal : Caller.normalObject "Document" document = .ok (.object fields))
      (noId : fields.lookup idField = none) (isFailure : Identifier.check generated = .error failure)
      (kind : Unusable generated → failure.kind? = some .idGeneration)
      (created : after = before.opened name) : Written replaces name document generated before after
        (.error failure)
  /-- The record breaks constraints in force. -/
  | broken {isGiven : Bool} {id : String} {record : Json}
      (isRecord : Records document generated isGiven id record)
      (breaks : violations record (before.constraints name) ≠ []) (unchanged : after = before) :
      Written replaces name document generated before after (.error
        (.ofFault (.violation (.ofString name) (violations record (before.constraints name)))))
  /-- A document of the identifier is stored, and is not to be replaced. -/
  | taken {isGiven : Bool} {id : String} {record : Json} {failure : Failure}
      (isRecord : Records document generated isGiven id record)
      (allowed : violations record (before.constraints name) = [])
      (stored : before.Stores name id) (stays : (replaces && isGiven) = false)
      (isFailure : failure.bare = .ofFault (.duplicateId (.ofString name) (.ofString id)))
      (unchanged : after = before) : Written replaces name document generated before after
        (.error failure)
  /-- The record is kept as a new one. -/
  | added {isGiven : Bool} {id : String} {record : Json}
      (isRecord : Records document generated isGiven id record)
      (allowed : violations record (before.constraints name) = [])
      (isNew : ¬ before.Stores name id)
      (collections : after.collections = (before.opened name).collections)
      (puts : before.Puts name record (before.documents name) after) :
      Written replaces name document generated before after (.ok id)
  /-- The record takes the place of the document of its identifier. -/
  | replaced {id : String} {record old : Json} {others : List Json} (isReplacing : replaces = true)
      (isRecord : Records document generated true id record)
      (allowed : violations record (before.constraints name) = [])
      (isOld : FileStore.documentId? old = some id)
      (stored : (before.documents name).Perm (old :: others))
      (alone : ∀ other ∈ others, FileStore.documentId? other ≠ some id)
      (collections : after.collections = before.collections)
      (puts : before.Puts name record others after) :
      Written replaces name document generated before after (.ok id)

/-! ## Contents of a storage after a write -/

section

variable {keeper : Keeper} {cabinet : Cabinet} {name : String}

theorem ofKeeper_opened :
    Contents.ofKeeper keeper (cabinet.opened name)
      = (Contents.ofKeeper keeper cabinet).opened name := by
  rw [Contents.opened]
  split
  next listed => rw [Cabinet.opened_of_there (mem_collections_iff.mp listed)]
  next unlisted =>
    have missing : cabinet.drawer? name = none := by
      simpa [mem_collections_iff] using unlisted
    have names : ((cabinet.opened name).collections.map Prod.fst).Perm
        (name :: (Contents.ofKeeper keeper cabinet).collections) := by
      have put : (cabinet.opened name).collections = cabinet.collections ++ [(name, ⟨[], []⟩)] := by
        rw [Cabinet.opened, missing]
        exact Content.put_of_not_mem _ (Lookup.lookup_eq_none_iff.mp missing)
      rw [put, List.map_append]
      exact (List.perm_append_singleton name _).trans ((Sorting.sort_perm _ _).symm.cons name)
    have collections := Sorting.sort_eq_of_perm Text.ranks_before names
      fun _ _ _ _ => Text.eq_of_not_before
    have documents : (fun wanted => listing keeper wanted (cabinet.opened name))
        = fun wanted => listing keeper wanted cabinet := by
      funext wanted
      rw [listing, listing, Cabinet.held_opened]
    have constraints : (cabinet.opened name).active = cabinet.active := funext Cabinet.active_opened
    rw [Contents.ofKeeper, collections, documents, constraints]
    rfl

/-- What breaks a constraint of a collection is for a collection that exists. -/
theorem opened_of_broken {record : Json} (breaks : violations record (cabinet.active name) ≠ []) :
    cabinet.opened name = cabinet := by
  refine Cabinet.opened_of_there (Option.isSome_iff_ne_none.mpr fun missing => breaks ?_)
  rw [Cabinet.active, Cabinet.held_of_missing missing]
  rfl

/-- A document that is stored is in a collection that exists. -/
theorem opened_of_stored {place : String} {document : Json}
    (found : (cabinet.held name).documents.lookup place = some document) :
    cabinet.opened name = cabinet := by
  refine Cabinet.opened_of_there (Option.isSome_iff_ne_none.mpr fun missing => ?_)
  rw [Cabinet.held_of_missing missing] at found
  cases found

section

variable (slotted : cabinet.Slotted keeper.slot) {id : String}
include slotted

/-- A slot is taken by a document of its identifier, as far as slots tell identifiers apart. -/
theorem stores_iff {ids : Set String} (apart : Set.InjOn keeper.slot ids) (inIds : id ∈ ids)
    (stored : ∀ id, (Contents.ofKeeper keeper cabinet).Stores name id → id ∈ ids) :
    (Contents.ofKeeper keeper cabinet).Stores name id
      ↔ ((cabinet.held name).documents.lookup (keeper.slot id)).isSome := by
  constructor
  · rintro ⟨document, member, isId⟩
    obtain ⟨id', kept, isId', _, _, found, _⟩ := of_mem_listing slotted member
    obtain rfl : id' = id := Option.some.inj (isId'.symm.trans isId)
    rw [found]
    rfl
  · intro isSome
    obtain ⟨kept, found⟩ := Option.isSome_iff_exists.mp isSome
    obtain ⟨wellFormed, id', isId', samePlace⟩ := (slotted.held name).documents _ kept found
    have stores : (Contents.ofKeeper keeper cabinet).Stores name id' :=
      ⟨keeper.shown kept, mem_listing.mpr ⟨_, Lookup.mem_of_lookup found, rfl⟩,
        (keeper.shown_alike wellFormed).documentId?_eq.symm.trans isId'⟩
    rwa [apart inIds (stored id' stores) samePlace]

/-- Whether a document is found by its identifier. -/
theorem isStored_iff : isStored keeper name id cabinet
    ↔ (Contents.ofKeeper keeper cabinet).Stores name id := by
  rw [isStored, Option.isSome_iff_exists]
  constructor
  · rintro ⟨kept, found⟩
    obtain ⟨found, isId⟩ := Option.filter_eq_some_iff.mp found
    have wellFormed := ((slotted.held name).documents _ kept found).1
    exact ⟨keeper.shown kept, mem_listing.mpr ⟨_, Lookup.mem_of_lookup found, rfl⟩,
      (keeper.shown_alike wellFormed).documentId?_eq.symm.trans (beq_iff_eq.mp isId)⟩
  · rintro ⟨document, member, isId⟩
    obtain ⟨id', kept, isId', isKept, _, found, _⟩ := of_mem_listing slotted member
    obtain rfl : id' = id := Option.some.inj (isId'.symm.trans isId)
    exact ⟨kept, Option.filter_eq_some_iff.mpr ⟨found, beq_iff_eq.mpr isKept⟩⟩

end

/-! ## Keeping and replacing a record -/

theorem Contents.Puts.of_opened {before after : Contents} {record : Json} {others : List Json}
    (puts : (before.opened name).Puts name record others after) :
    before.Puts name record others after := by
  rw [Contents.opened] at puts
  split at puts
  · exact puts
  · exact ⟨puts.constraints, puts.elsewhere, puts.documents⟩

/-- A change of a collection that keeps its constraints changes its documents alone. -/
theorem puts_modify (there : (cabinet.drawer? name).isSome) {place : String} {record : Json}
    (wellFormed : record.WellFormed) {others : List (String × Json)}
    (documents : (Content.json.put place record (cabinet.held name).documents).Perm
      ((place, record) :: others)) :
    (Contents.ofKeeper keeper cabinet).Puts name record
      (others.map fun entry => keeper.shown entry.2)
      (.ofKeeper keeper (cabinet.modify name fun drawer => drawer.putAt place record)) where
  constraints := by
    funext wanted
    show Cabinet.active _ wanted = Cabinet.active _ wanted
    rw [Cabinet.active, Cabinet.active, Cabinet.held_modify there]
    split
    next same => rw [same]; rfl
    next => rfl
  elsewhere other differs := by
    show listing keeper other _ = listing keeper other _
    rw [listing, listing, Cabinet.held_modify there, if_neg differs]
  documents := by
    refine ⟨keeper.shown record, keeper.shown_alike wellFormed, ?_⟩
    show (listing keeper name _).Perm _
    rw [listing, Cabinet.held_modify there, if_pos rfl]
    have reordered := keeper.order_perm ((cabinet.held name).putAt place record)
    exact (reordered.trans documents).map fun entry => keeper.shown entry.2

theorem collections_modify {change : Drawer → Drawer} :
    (Contents.ofKeeper keeper (cabinet.modify name change)).collections
      = (Contents.ofKeeper keeper cabinet).collections := by
  refine congrArg (Sorting.sort Text.before) ?_
  unfold Cabinet.modify
  split
  next drawer there =>
    exact Content.map_fst_put_of_mem _ (List.mem_map_of_mem (Lookup.mem_of_lookup there))
  next => rfl

section

variable {document : Caller.Value} {generated : Identifier.Generated} {isGiven replaces : Bool}
  {id : String} {record : Json} (slotted : cabinet.Slotted keeper.slot)
  (wellFormed : record.WellFormed)
include slotted wellFormed

theorem written_keep (isRecord : Records document generated isGiven id record)
    (apart : Set.InjOn keeper.slot
      ((Contents.ofKeeper keeper cabinet).idsWith name document generated))
    (stays : (replaces && isGiven) = false ∨ ¬ (Contents.ofKeeper keeper cabinet).Stores name id) :
    Written replaces name document generated (.ofKeeper keeper cabinet)
      (.ofKeeper keeper (keep keeper name id record (cabinet.opened name)).2)
      (keep keeper name id record (cabinet.opened name)).1 := by
  have stores := stores_iff slotted apart (.inr ⟨isGiven, record, isRecord⟩)
    fun id stored => .inl stored
  rw [keep, refusal, Cabinet.active_opened, Cabinet.held_opened]
  split
  next breaks =>
    rw [opened_of_broken breaks]
    exact .broken isRecord breaks rfl
  next allowed =>
    split
    next isSome =>
      obtain ⟨kept, found⟩ := Option.isSome_iff_exists.mp isSome
      have stored := stores.mpr isSome
      rw [opened_of_stored found]
      exact .taken isRecord (not_not.mp allowed) stored
        (stays.resolve_right (not_not.mpr stored)) (keeper.taken_bare name id) rfl
    next isNone =>
      have isNew : keeper.slot id ∉ ((cabinet.opened name).held name).documents.map Prod.fst := by
        rw [Cabinet.held_opened, ← Lookup.lookup_eq_none_iff]
        exact Option.not_isSome_iff_eq_none.mp isNone
      have documents : (Content.json.put (keeper.slot id) record
          ((cabinet.opened name).held name).documents).Perm
            ((keeper.slot id, record) :: ((cabinet.opened name).held name).documents) := by
        rw [Content.put_of_not_mem record isNew]
        exact List.perm_append_singleton _ _
      have puts : (Contents.ofKeeper keeper (cabinet.opened name)).Puts name record _ _ :=
        puts_modify Cabinet.there_opened wellFormed documents
      have others : (((cabinet.opened name).held name).documents.map fun entry =>
          keeper.shown entry.2).Perm (listing keeper name cabinet) := by
        rw [Cabinet.held_opened]
        exact ((keeper.order_perm _).map fun entry => keeper.shown entry.2).symm
      obtain ⟨shown, alike, isPerm⟩ := puts.documents
      rw [ofKeeper_opened] at puts
      exact .added isRecord (not_not.mp allowed) (fun stored => isNone (stores.mp stored))
        (collections_modify.trans (congrArg Contents.collections ofKeeper_opened))
        ⟨puts.of_opened.constraints, puts.of_opened.elsewhere, shown, alike,
          isPerm.trans (others.cons shown)⟩

theorem written_overwrite (isRecord : Records document generated true id record)
    (stored : isStored keeper name id cabinet) :
    Written true name document generated (.ofKeeper keeper cabinet)
      (.ofKeeper keeper (overwrite keeper name id record cabinet).2)
      (overwrite keeper name id record cabinet).1 := by
  rw [overwrite, refusal]
  split
  next breaks => exact .broken isRecord breaks rfl
  next allowed =>
    obtain ⟨old, found⟩ := Option.isSome_iff_exists.mp stored
    obtain ⟨found, isOld⟩ := Option.filter_eq_some_iff.mp found
    have inSlots := slotted.held name
    have oldForm := (inSlots.documents _ old found).1
    obtain ⟨rest, before, after⟩ := Content.exists_put_of_lookup record found
    have there : (cabinet.drawer? name).isSome := by
      rw [← opened_of_stored found]
      exact Cabinet.there_opened
    have stored : (listing keeper name cabinet).Perm
        (keeper.shown old :: rest.map fun entry => keeper.shown entry.2) := by
      have reordered := (keeper.order_perm (cabinet.held name)).trans before
      exact reordered.map fun entry : String × Json => keeper.shown entry.2
    refine .replaced rfl isRecord (not_not.mp allowed)
      ((keeper.shown_alike oldForm).documentId?_eq.symm.trans (beq_iff_eq.mp isOld)) stored ?_
      collections_modify (puts_modify there wellFormed after)
    · intro other member isId
      obtain ⟨⟨place, kept⟩, inRest, rfl⟩ := List.mem_map.mp member
      have inside := before.mem_iff.mpr (List.mem_cons_of_mem _ inRest)
      obtain ⟨keptForm, id', isId', isPlace⟩ := inSlots.of_mem_documents inside
      rw [← (keeper.shown_alike keptForm).documentId?_eq, isId'] at isId
      obtain rfl : id' = id := Option.some.inj isId
      have distinct := (before.map Prod.fst).nodup_iff.mp inSlots.documentsDistinct
      have isKey : keeper.slot id' ∈ rest.map Prod.fst := isPlace ▸ List.mem_map_of_mem inRest
      exact (List.nodup_cons.mp distinct).1 isKey

end

/-! ## Insertions and saving -/

section

variable {document : Caller.Value} {generator : Nat → Identifier.Generated} {calls : Nat}
  {fields : List (String × Json)} {replaces : Bool} (slotted : cabinet.Slotted keeper.slot)
  (isNormal : Caller.normalObject "Document" document = .ok (.object fields))
  (wellFormed : Json.WellFormed (.object fields))
  (noId : givenId? fields = none → idField ∉ fields.map Prod.fst)
  (apart : Set.InjOn keeper.slot
    ((Contents.ofKeeper keeper cabinet).idsWith name document (generator calls)))

theorem lookup_idField_of_given {id : String} (given : givenId? fields = some id) :
    fields.lookup idField = some (Json.string id) := by
  obtain ⟨value, found, isText⟩ := Option.bind_eq_some_iff.mp given
  rw [found]
  cases value with
  | leaf scalar =>
      cases scalar <;> cases isText
      rfl
  | array _ | object _ => cases isText

include slotted isNormal wellFormed noId apart

theorem written_insertion
    (stays : ∀ id, givenId? fields = some id → replaces = false
      ∨ ¬ (Contents.ofKeeper keeper cabinet).Stores name id) :
    Written replaces name document (generator calls) (.ofKeeper keeper cabinet)
      (.ofKeeper keeper (insertion keeper generator name fields (cabinet.opened name, calls)).2.1)
      (insertion keeper generator name fields (cabinet.opened name, calls)).1 := by
  rw [insertion, recordOf]
  cases given : givenId? fields with
  | some id =>
      refine written_keep slotted wellFormed (.given isNormal (lookup_idField_of_given given)) apart ?_
      exact (stays id given).imp_left fun isFalse => by rw [isFalse]; rfl
  | none =>
      have absent := Lookup.lookup_eq_none_iff.mpr (noId given)
      dsimp only
      cases checked : Identifier.check (generator calls) with
      | error failure =>
          refine .withoutId isNormal absent checked (fun unusable => ?_) ofKeeper_opened
          obtain ⟨failure', checked', kind⟩ := kind?_of_unusable unusable
          cases checked.symm.trans checked'
          exact kind
      | ok id =>
          exact written_keep slotted (wellFormed_withId id wellFormed (noId given))
            (.generated isNormal absent checked) apart (.inl (Bool.and_false replaces))

theorem written_saving :
    Written true name document (generator calls) (.ofKeeper keeper cabinet)
      (.ofKeeper keeper (saving keeper generator name fields (cabinet.opened name, calls)).2.1)
      (saving keeper generator name fields (cabinet.opened name, calls)).1 := by
  have inserts (isNew : ∀ id, givenId? fields = some id → true = false
      ∨ ¬ (Contents.ofKeeper keeper cabinet).Stores name id) :=
    written_insertion slotted isNormal wellFormed noId apart isNew
  rw [saving]
  cases given : givenId? fields with
  | none => exact inserts fun id given' => by cases given.symm.trans given'
  | some id =>
      have same : isStored keeper name id (cabinet.opened name) = isStored keeper name id cabinet := by
        rw [isStored, isStored, Cabinet.held_opened]
      dsimp only
      rw [same]
      split
      next stored =>
        have found := Option.isSome_iff_exists.mp stored
        obtain ⟨kept, found⟩ := found
        rw [opened_of_stored (Option.filter_eq_some_iff.mp found).1]
        exact written_overwrite slotted wellFormed
          (.given isNormal (lookup_idField_of_given given)) stored
      next notStored =>
        refine inserts fun id' given' => .inr fun stores => notStored ?_
        obtain rfl : id = id' := Option.some.inj (given.symm.trans given')
        exact (isStored_iff slotted).mpr stores

end

/-- Whatever is done with the fields of a document is done unless the document cannot be kept. -/
theorem written_settle {document : Caller.Value} {generated : Identifier.Generated} {calls : Nat}
    {replaces : Bool} {next : List (String × Json) → Except Failure String × (Cabinet × Nat)}
    (goesOn : ∀ fields, Caller.normalObject "Document" document = .ok (.object fields) →
      body document = .ok fields →
      Written replaces name document generated (.ofKeeper keeper cabinet)
        (.ofKeeper keeper (next fields).2.1) (next fields).1) :
    Written replaces name document generated (.ofKeeper keeper cabinet)
      (.ofKeeper keeper (settle (body document) (cabinet, calls) next).2.1)
      (settle (body document) (cabinet, calls) next).1 := by
  rcases body_cases document with ⟨unfit, failure, isBody, kind⟩ | ⟨_, fields, isNormal, isBody⟩
  · rw [isBody]
    exact .unfit unfit kind rfl
  · rw [isBody]
    exact goesOn fields isNormal isBody

end

namespace Session

/-- What a write that is attempted on a machine comes to. -/
def Writes (session : Session) (replaces : Bool) (name : String) (document : Caller.Value)
    (generated : Identifier.Generated) (before : Contents)
    (attempted : Except Failure String × Machine) : Prop :=
  ∃ after, session.Reports attempted.2 after
    ∧ Written replaces name document generated before after attempted.1

section

variable {session : Session} {machine : Machine} {keeper : Keeper}
  (fresh : session.Fresh machine keeper) {operations : List Operation}
  (distinct : ∀ operation ∈ operations, operation.Distinct)
include fresh distinct

omit distinct in
/-- In memory every identifier has a slot of its own; in files the digest has to tell them apart. -/
theorem Fresh.injOn_slot {ids : Set String} (apart : session.backend = .memory ∨ Apart ids) :
    Set.InjOn keeper.slot ids := by
  cases fresh with
  | memory _ _ => exact fun _ _ _ _ same => same
  | files opened =>
      refine Files.keyName_injOn (apart.resolve_left fun isMemory => ?_)
      cases opened.backend.symm.trans isMemory

end

end Session

end Database

end DocStore
