import DocStore.Proofs.Database.FieldTypes
import DocStore.Proofs.Database.Beginnings
/-!
# Where documents and constraints are kept

Every storage keeps a document in the slot of its identifier and a constraint in the slot of its
name.  `Session.documentSlots` and `Session.checkSlots` look these slots up where they are: in the
memory of the machine, or in the files of the directories of a collection.  `Stands.documentSlots`
and `Stands.checkSlots` say that they hold what the storage keeps and nothing else, and
`Begins.in_slots` what follows for a database at every moment of a history.
-/

set_option autoImplicit false

namespace DocStore

open Disk (Path Place Plain Vacant Shows Branch Entry Unmade)
open Files (Named keyName)
open Host (Machine)

/-- The entries of a directory, each with the value that is read from it if it is a file. -/
def Disk.valuesIn (disk : Disk) (directory : Path) : List (String × Option Json) :=
  match disk.list directory with
  | .ok listed => listed.map fun found =>
      (found.1, (disk.read (directory ++ [found.1])).toOption.bind Json.parse?)
  | .error _ => []

/-! ## Files of a directory -/

section

variable {origin : Disk} {root : Path} {home : Place} {branch : Branch} {disk : Disk}

/-- A directory that holds a file for each of some entries, and nothing else, lists their values. -/
theorem Disk.Shows.valuesIn_perm {α : Type} (shows : Shows origin home branch disk)
    (vacant : Vacant origin root home) {names : List String} {last : String} {identity : Nat}
    (leads : branch.Leads names) (few : names.length + 1 < Disk.maxDepth)
    (plain : ∀ name ∈ names ++ [last], Plain name)
    (isDirectory : branch (names ++ [last]) = some (.directory identity))
    {entries : List (String × α)} (distinct : (entries.map Prod.fst).Nodup)
    (plainFiles : ∀ file ∈ entries.map Prod.fst, Plain file)
    (text : α → String) {value : α → Json}
    (files : ∀ file, (branch (names ++ [last] ++ [file])).map Entry.node
      = (entries.lookup file).map fun entry => .file (text entry))
    (parses : ∀ entry ∈ entries, Json.parse? (text entry.2) = some (value entry.2)) :
    (disk.valuesIn (root.trimmed ++ (names ++ [last]))).Perm
      (entries.map fun entry => (entry.1, some (value entry.2))) := by
  obtain ⟨listed, isListed, keys, each⟩ :=
    shows.list_directory vacant leads plain (Nat.lt_of_succ_lt few) isDirectory
  let reading (file : String) : Option Json :=
    (disk.read (root.trimmed ++ (names ++ [last]) ++ [file])).toOption.bind Json.parse?
  have isRead : ∀ entry ∈ entries, reading entry.1 = some (value entry.2) := by
    intro entry member
    have found := files entry.1
    rw [(Lookup.lookup_eq_some_iff distinct).mpr member, Option.map_some, Option.map_eq_some_iff]
      at found
    obtain ⟨found, isFile, node⟩ := found
    cases found with
    | directory _ | link _ => cases node
    | file _ content =>
        cases node
        have plainAll : ∀ name ∈ names ++ [last] ++ [entry.1], Plain name := by
          intro name inNames
          rcases List.mem_append.mp inNames with above | here
          · exact plain name above
          · exact List.mem_singleton.mp here ▸ plainFiles entry.1 (List.mem_map_of_mem member)
        have reads := shows.read_file vacant (leads.concat isDirectory) plainAll
          (by rw [List.length_append]; exact few) isFile
        rw [← List.append_assoc] at reads
        show (disk.read _).toOption.bind _ = _
        rw [reads]
        exact parses entry member
  have sameKeys : (listed.map Prod.fst).Perm (entries.map Prod.fst) := by
    refine (List.perm_ext_iff_of_nodup keys distinct).mpr fun file => ?_
    have there : file ∈ entries.map Prod.fst ↔ (branch (names ++ [last] ++ [file])).isSome := by
      rw [← Option.isSome_map, files, Option.isSome_map, Option.isSome_iff_ne_none, ne_eq,
        Lookup.lookup_eq_none_iff, not_not]
    rw [there, Option.isSome_iff_exists, List.mem_map]
    constructor
    · rintro ⟨⟨file, kind⟩, member, rfl⟩
      obtain ⟨entry, found, _⟩ := (each file kind).mp member
      exact ⟨entry, found⟩
    · rintro ⟨entry, found⟩
      exact ⟨(file, entry.kind), (each file entry.kind).mpr ⟨entry, found, rfl⟩, rfl⟩
  have fromKeys : entries.map (fun entry => (entry.1, some (value entry.2)))
      = (entries.map Prod.fst).map fun file => (file, reading file) := by
    rw [List.map_map]
    exact List.map_congr_left fun entry member => Prod.ext rfl (isRead entry member).symm
  have toKeys : disk.valuesIn (root.trimmed ++ (names ++ [last]))
      = (listed.map Prod.fst).map fun file => (file, reading file) := by
    rw [Disk.valuesIn, isListed, List.map_map]
    rfl
  rw [fromKeys, toKeys]
  exact sameKeys.map _

/-- A directory that leads nowhere has no entries. -/
theorem Disk.valuesIn_nowhere {directory : Path} (nowhere : disk.list directory = .error .noEntry) :
    disk.valuesIn directory = [] := by
  rw [Disk.valuesIn, nowhere]

end

namespace Database

/-! ## Slots -/

namespace Session

/-- Where a database keeps what has a key: in memory under the key itself, in files under the name
of a file. -/
def slotOf (session : Session) (key : String) : String :=
  match session.backend with
  | .memory => key
  | .files _ => keyName key

/-- The slots for the documents of a collection, with what is read from each. -/
def documentSlots (session : Session) (machine : Machine) (name : String) :
    List (String × Option Json) :=
  match session.backend with
  | .memory =>
      match Memory.collection? (machine.memories .json session.number) name with
      | none => []
      | some collection => collection.documents.map fun entry => (entry.1, some entry.2)
  | .files store => machine.disk.valuesIn (store.documentsPath name)

/-- The slots for the constraints of a collection, with what is read from each. -/
def checkSlots (session : Session) (machine : Machine) (name : String) :
    List (String × Option (StoredCheck .json)) :=
  match session.backend with
  | .memory =>
      match Memory.collection? (machine.memories .json session.number) name with
      | none => []
      | some collection => collection.checks.map fun entry => (entry.1, some ⟨entry.1, entry.2⟩)
  | .files store => (machine.disk.valuesIn (store.checksPath name)).map fun found =>
      (found.1, found.2.bind FileStore.storedCheck?)

section

variable {session : Session} {generator : Nat → Identifier.Generated} {keeper : Keeper}
  {state : Cabinet × Nat} {machine : Machine}
  (stands : session.Stands generator keeper state machine)
include stands

theorem Stands.slot_eq : keeper.slot = session.slotOf := by
  funext key
  cases stands with
  | memory backend => rw [slotOf, backend]; rfl
  | files backend | unmade backend => rw [slotOf, backend]; rfl

/-- A directory of a collection holds a file for each entry, wherever the root is. -/
theorem Stands.valuesIn_part {store : FileStore} (isFiles : session.backend = .files store)
    {name : String}
    (named : Named name) {part : String} (isPart : isPart part) {α : Type}
    (entries : Drawer → List (String × α)) (text : Json.Layout → α → String) (value : α → Json)
    (nothing : entries ⟨[], []⟩ = [])
    (node : ∀ (drawer : Drawer) layout file, drawer.node? layout [part, file]
      = ((entries drawer).lookup file).map fun entry => .file (text layout entry))
    (distinct : ((entries (state.1.held name)).map Prod.fst).Nodup)
    (stored : ∀ entry ∈ entries (state.1.held name), Files.Stored entry.1)
    (parses : store.layout.Blank → ∀ entry ∈ entries (state.1.held name),
      Json.parse? (text store.layout entry.2) = some (value entry.2)) :
    (machine.disk.valuesIn ((store.collectionPath name).child part)).Perm
      ((entries (state.1.held name)).map fun entry => (entry.1, some (value entry.2))) := by
  have plain : ∀ other ∈ [name] ++ [part], Plain other := fun other member =>
    named.plain_names isPart isPart.stored other (List.mem_append_left _ member)
  cases stands with
  | memory backend => exact nomatch backend.symm.trans isFiles
  | files backend blank vacant rests =>
      cases backend.symm.trans isFiles
      obtain ⟨branch, locked, _, shows, keeps⟩ := rests.below
      rw [FileStore.partPath_eq vacant.resolved named]
      cases there : state.1.drawer? name with
      | none =>
          have absent : branch.Absent ([name] ++ [part]) :=
            keeps.absent named.ne_lockDirectory there [part]
          have nowhere := shows.list_absent vacant absent plain (show 2 ≤ 3 by decide)
          rw [Cabinet.held_of_missing there, nothing, Disk.valuesIn_nowhere nowhere]
          exact .refl _
      | some drawer =>
          obtain ⟨identity, isDirectory⟩ := keeps.part_directory there isPart
          rw [Cabinet.held_eq there] at distinct stored parses ⊢
          refine shows.valuesIn_perm vacant (keeps.leads_collection there) (show 2 < 3 by decide)
            plain isDirectory distinct (fun file member => ?_) (text store.layout)
            (fun file => ?_) (parses blank)
          · obtain ⟨entry, inside, rfl⟩ := List.mem_map.mp member
            exact (stored entry inside).plain
          · obtain ⟨layout, isLayout, same⟩ := keeps.node_eq [part, file] named.ne_lockDirectory
            rw [Set.mem_singleton_iff.mp isLayout, Keeps.node?_eq there, node] at same
            exact same
  | unmade backend _ unmade =>
      cases backend.symm.trans isFiles
      rw [FileStore.partPath_eq unmade.resolved named,
        Disk.valuesIn_nowhere (unmade.list plain (show 2 ≤ 3 by decide))]
      show List.Perm [] ((entries ⟨[], []⟩).map _)
      rw [nothing]
      exact .refl _

variable (slotted : state.1.Slotted keeper.slot) {name : String} (named : Named name)
include slotted named

/-- **The slots hold the documents** of a collection and nothing else. -/
theorem Stands.documentSlots_perm :
    (session.documentSlots machine name).Perm
      ((state.1.held name).documents.map fun entry => (entry.1, some (keeper.shown entry.2))) := by
  have inSlots := slotted.held name
  cases backend : session.backend with
  | memory =>
      obtain ⟨rfl, memories⟩ := stands.of_memory backend
      rw [documentSlots, backend, memories]
      dsimp only
      rw [Keeper.collection?_eq, Cabinet.held]
      cases state.1.drawer? name <;> exact .refl _
  | files store =>
      obtain rfl := stands.of_files backend
      rw [documentSlots, backend]
      refine stands.valuesIn_part backend named (.inl rfl) MemoryCollection.documents
        (fun layout document => Json.canonicalText layout .document document)
        (Json.settled .document) rfl
        (fun drawer layout file => drawer.node?_document file layout) inSlots.documentsDistinct
        (fun entry member => ?_) fun blank entry member => ?_
      · obtain ⟨_, id, _, isSlot⟩ := inSlots.of_mem_documents member
        exact isSlot ▸ Files.stored_keyName id
      · exact Json.parse?_canonicalText blank (inSlots.of_mem_documents member).1 .document

/-- **The slots hold the constraints** of a collection and nothing else. -/
theorem Stands.checkSlots_perm :
    (session.checkSlots machine name).Perm
      ((state.1.held name).checks.map fun entry => (entry.1, some ⟨entry.2.name, entry.2⟩)) := by
  have inSlots := slotted.held name
  cases backend : session.backend with
  | memory =>
      obtain ⟨rfl, memories⟩ := stands.of_memory backend
      have isName : (state.1.held name).checks.map (fun entry =>
            (entry.1, some (⟨entry.1, entry.2⟩ : StoredCheck .json)))
          = (state.1.held name).checks.map fun entry => (entry.1, some ⟨entry.2.name, entry.2⟩) :=
        List.map_congr_left fun entry member => by rw [inSlots.of_mem_checks member]; rfl
      rw [← isName, checkSlots, backend, memories]
      dsimp only
      rw [Keeper.collection?_eq, Cabinet.held]
      cases state.1.drawer? name <;> exact .refl _
  | files store =>
      obtain rfl := stands.of_files backend
      have values := stands.valuesIn_part backend named (.inr rfl)
        MemoryCollection.checks Drawer.checkText
        (fun check => Json.settled .alphabetical (StoredCheck.toJson ⟨check.name, check⟩))
        rfl (fun drawer layout file => drawer.node?_check file layout) inSlots.checksDistinct
        (fun entry member => inSlots.of_mem_checks member ▸ Files.stored_keyName _)
        fun blank entry _ => Json.parse?_canonicalText blank (FileStore.wellFormed_storedCheck _) _
      rw [checkSlots, backend]
      refine (values.map _).trans (.of_eq ?_)
      rw [List.map_map]
      refine List.map_congr_left fun entry _ => ?_
      exact Prod.ext rfl (FileStore.storedCheck?_settled .alphabetical ⟨entry.2.name, entry.2⟩)

end

/-! ## At every moment -/

/-- What holds of a collection, given what is told of it: no field has two types, and documents and
constraints are in the slots of their identifiers and names, without anything else there. -/
structure InSlots (session : Session) (machine : Machine) (name : String) (documents : List Json)
    (constraints : List Constraint) : Prop where
  /-- There is at most one type for each field. -/
  types : constraints.Pairwise fun first second => ∀ type type', first.rule = .hasType type →
    second.rule = .hasType type' → first.field ≠ second.field
  /-- No two constraints have the same name. -/
  names : (constraints.map Constraint.name).Nodup
  /-- Each constraint is stored under its own name. -/
  checks : (session.checkSlots machine name).Perm (constraints.map fun constraint =>
    (session.slotOf constraint.name, some ⟨constraint.name, constraint⟩))
  /-- Every document is an object with an identifier. -/
  identified : ∀ document ∈ documents, ∃ fields id, document = .object fields
    ∧ FileStore.documentId? document = some id
  /-- No two documents have the same identifier. -/
  identifiers : (documents.map FileStore.documentId?).Nodup
  /-- No two documents are in the same slot. -/
  distinct : ((session.documentSlots machine name).map Prod.fst).Nodup
  /-- Each document is stored under its identifier. -/
  slots : ∀ slot found, (slot, found) ∈ session.documentSlots machine name ↔
    ∃ document ∈ documents, ∃ id, FileStore.documentId? document = some id
      ∧ slot = session.slotOf id ∧ found = some document
  /-- Each document is found under its identifier. -/
  found : ∀ document ∈ documents, ∀ id, FileStore.documentId? document = some id →
    (machine.attempt (session.perform (.findOneById (.ofString name) (.ofString id)))).1
      = .ok (some document)

section

variable {keeper : Keeper} {generator : Nat → Identifier.Generated} {start : Cabinet × Nat}

/-- No field gets two types, whatever operations come one after another. -/
theorem oneType_reached {name : String} (oneType : OneType (checksOf name start.1))
    {operations : List Operation} (distinct : ∀ operation ∈ operations, operation.Distinct)
    (specified : ∀ operation ∈ operations, operation.Specified) :
    OneType (checksOf name (reached keeper generator start operations).1) := by
  induction operations using List.reverseRecOn with
  | nil => exact oneType
  | append_singleton before operation ih =>
      rw [reached_concat]
      exact oneType_outcome (distinct operation (by simp)) (specified operation (by simp))
        (ih (fun other member => distinct other (List.mem_append_left _ member))
          fun other member => specified other (List.mem_append_left _ member))

end

section

variable {session : Session} {generator : Nat → Identifier.Generated} {keeper : Keeper}
  {state : Cabinet × Nat} {machine : Machine}

/-- What a database stands for is in its slots. -/
theorem Stands.inSlots (stands : session.Stands generator keeper state machine)
    (slotted : state.1.Slotted keeper.slot) {name : String} (named : Named name)
    (oneType : OneType (checksOf name state.1)) :
    session.InSlots machine name (listing keeper name state.1) (state.1.active name) := by
  have inSlots := slotted.held name
  have isSlot {key : String} : keeper.slot key = session.slotOf key := congrFun stands.slot_eq key
  have documentSlots := stands.documentSlots_perm slotted named
  have active : (state.1.active name).Perm ((state.1.held name).checks.map Prod.snd) :=
    Sorting.sort_perm _ _
  have names : ((state.1.active name).map Constraint.name).Nodup := nodup_names_active slotted
  refine ⟨?_, names, ?_, fun document member => ?_, nodup_ids_listing slotted, ?_,
    fun slot found => ?_, fun document member id isId => ?_⟩
  · -- Two types of a field would be the same type, and so the same name.
    refine (List.pairwise_map.mp names).imp_of_mem ?_
    rintro ⟨field, rule⟩ ⟨field', rule'⟩ inFirst inSecond differ type type' rfl rfl rfl
    refine differ ?_
    rw [oneType field type type' (mem_active.mp inFirst) (mem_active.mp inSecond)]
  · refine (stands.checkSlots_perm slotted named).trans (.trans (.of_eq ?_) (active.symm.map _))
    rw [List.map_map]
    exact List.map_congr_left fun entry member =>
      Prod.ext ((inSlots.of_mem_checks member).trans isSlot) rfl
  · obtain ⟨id, _, isId, _⟩ := of_mem_listing slotted member
    obtain ⟨fields, isObject⟩ := FileStore.exists_fields_of_documentId? isId
    exact ⟨fields, id, isObject, isId⟩
  · refine (documentSlots.map Prod.fst).nodup_iff.mpr ?_
    rw [List.map_map]
    exact inSlots.documentsDistinct
  · rw [documentSlots.mem_iff, List.mem_map]
    constructor
    · rintro ⟨entry, inside, same⟩
      obtain ⟨rfl, rfl⟩ := Prod.mk.inj same
      obtain ⟨id, isId, _, _, isPlace⟩ := of_mem_held slotted inside
      exact ⟨keeper.shown entry.2, mem_listing.mpr ⟨entry, inside, rfl⟩, id, isId,
        isPlace.trans isSlot, rfl⟩
    · rintro ⟨document, member, id, isId, rfl, rfl⟩
      obtain ⟨entry, inside, rfl⟩ := mem_listing.mp member
      refine ⟨entry, inside, Prod.ext ?_ rfl⟩
      have isPlace := slot_of_mem_held slotted inside
      rw [isId, Option.map_some] at isPlace
      exact (Option.some.inj isPlace).symm.trans isSlot
  · obtain ⟨id', kept, isId', isKept, _, found, rfl⟩ := of_mem_listing slotted member
    obtain rfl : id' = id := Option.some.inj (isId'.symm.trans isId)
    have distinct : (Operation.findOneById (.ofString name) (.ofString id')).Distinct := trivial
    rw [(stands.attempt slotted distinct).1, outcome, checkedName_ofString named]
    show (Except.ok (found? keeper name id' state.1) : Except Failure (Option Json)) = _
    rw [found?, found, Option.filter_some, if_pos (beq_iff_eq.mpr isKept), Option.map_some]

/-- **In every state that operations lead to**, over either storage and whether or not its root was
there before, each collection has at most one type for each field, each constraint is stored under
its own name, and each document is an object that is stored under its own identifier. -/
theorem Begins.in_slots (begins : session.Begins machine keeper) {operations : List Operation}
    (distinct : ∀ operation ∈ operations, operation.Distinct)
    (specified : ∀ operation ∈ operations, operation.Specified) :
    ∃ contents, session.Reports (session.after machine operations) contents
      ∧ ∀ name, Collection.nameFault? name = none →
        session.InSlots (session.after machine operations) name (contents.documents name)
          (contents.constraints name) := by
  refine ⟨_, begins.reports distinct, fun name isName => ?_⟩
  have nothing : OneType (checksOf name Memory.empty) := fun _ _ _ member => nomatch member
  exact (begins.after distinct).inSlots (slotted_reached Cabinet.slotted_empty distinct)
    (Files.named_of_nameFault? isName) (oneType_reached nothing distinct specified)

end

end Session

/-- A collection whose documents have names that are texts, with a document. -/
def typedUsers : List Operation :=
  [.addConstraint (.ofString "users")
      (.object false [("name", .object false [("$type", .ofString "string")])]),
    .insert (.ofString "users") ada]

/-- The document and the constraint are in their slots, in directories that have been made for them
from nothing. -/
theorem typed_users_in_slots :
    newSession.Begins Machine.start (.files newStore)
      ∧ (∀ operation ∈ typedUsers, operation.Distinct)
      ∧ (∀ operation ∈ typedUsers, operation.Specified)
      ∧ ∃ contents, newSession.Reports (newSession.after Machine.start typedUsers) contents
        ∧ newSession.InSlots (newSession.after Machine.start typedUsers) "users"
          (contents.documents "users") (contents.constraints "users") := by
  have distinct : ∀ operation ∈ typedUsers, operation.Distinct := by
    simpa [typedUsers, Operation.Distinct] using distinct_ada
  have specified : ∀ operation ∈ typedUsers, operation.Specified := by
    have rules : (Caller.Value.object false [("$type", .ofString "string")]).Distinct :=
      .object (by decide) (by simpa using Caller.Value.distinct_ofString "string")
    have spec : (Caller.Value.object false
        [("name", .object false [("$type", .ofString "string")])]).Distinct :=
      .object (by decide) (by simpa using rules)
    simpa [typedUsers, Operation.Specified] using spec
  obtain ⟨contents, reports, inSlots⟩ := begins_start.in_slots distinct specified
  exact ⟨begins_start, distinct, specified, contents, reports, inSlots "users" (by decide)⟩

end Database

end DocStore
