import DocStore.Files.Store
import DocStore.Proofs.Disk.Below
import DocStore.Proofs.Files.Names
import DocStore.Proofs.Json.Settled
import DocStore.Proofs.Lookup
import DocStore.Proofs.Sorting
import DocStore.Storage.Memory
import Mathlib.Data.List.Nodup
import Mathlib.Data.Set.Basic
/-!
# What a storage in files keeps

A cabinet is what a storage in files keeps, apart from how it lies on the disk: collections, with
documents and constraints under the names of their files.  `Cabinet.node?` is the tree of files and
directories that a cabinet is, and `Keeps` says that a branch is that tree, next to whatever there
is about locks.  `Cabinet.perform` is what an operation does to a cabinet, and `perform_orderly`
that a cabinet stays in order.
-/

set_option autoImplicit false

/-!
## Entries under texts

The storage in memory keeps collections, documents and constraints as lists of entries.  Where the
keys are texts an entry is found by looking up its key (`Content.find?_json`), and putting and
removing entries change what is found under that key alone.  The keys stay distinct.
-/

namespace DocStore

namespace Content

variable {β : Type} (key : String) (value : β) (entries : List (String × β))

theorem find?_json : Content.json.find? key entries = entries.lookup key := by
  unfold find?
  induction entries with
  | nil => rfl
  | cons entry rest ih =>
      obtain ⟨head, first⟩ := entry
      by_cases isHead : head = key
      · simp [same, isHead]
      · have other : (key == head) = false := by simpa using Ne.symm isHead
        rw [List.lookup_cons, other, ← ih, List.find?_cons_of_neg (by simpa [same] using isHead)]

theorem lookup_put (wanted : String) :
    (Content.json.put key value entries).lookup wanted
      = if wanted = key then some value else entries.lookup wanted := by
  induction entries with
  | nil =>
      by_cases isKey : wanted = key
      · simp [put, isKey]
      · simp [put, isKey, List.lookup_cons, beq_eq_false_iff_ne.mpr isKey]
  | cons entry rest ih =>
      obtain ⟨head, first⟩ := entry
      by_cases isHead : head = key
      · subst isHead
        by_cases isKey : wanted = head
        · simp [put, same, isKey]
        · simp [put, same, isKey, List.lookup_cons, beq_eq_false_iff_ne.mpr isKey]
      · by_cases isKey : wanted = head
        · subst isKey
          simp [put, same, isHead]
        · simp [put, same, isHead, List.lookup_cons, beq_eq_false_iff_ne.mpr isKey, ih]

theorem lookup_remove (wanted : String) :
    (Content.json.remove key entries).lookup wanted
      = if wanted = key then none else entries.lookup wanted := by
  refine (Lookup.lookup_filter (fun head => !same .json head key) entries wanted).trans ?_
  by_cases isKey : wanted = key <;> simp [same, isKey]

/-- A new key goes to the end. -/
theorem put_of_not_mem {key : String} {entries : List (String × β)}
    (isNew : key ∉ entries.map Prod.fst) :
    Content.json.put key value entries = entries ++ [(key, value)] := by
  induction entries with
  | nil => rfl
  | cons entry rest ih =>
      obtain ⟨notHead, notRest⟩ : key ≠ entry.1 ∧ key ∉ rest.map Prod.fst := by
        simpa only [List.map_cons, List.mem_cons, not_or] using isNew
      rw [put, if_neg (by simpa [same] using Ne.symm notHead), ih notRest, List.cons_append]

/-- A key that is there keeps its place. -/
theorem map_fst_put_of_mem {key : String} {entries : List (String × β)}
    (isKey : key ∈ entries.map Prod.fst) :
    (Content.json.put key value entries).map Prod.fst = entries.map Prod.fst := by
  induction entries with
  | nil => exact absurd isKey (by simp)
  | cons entry rest ih =>
      obtain ⟨head, first⟩ := entry
      by_cases isHead : head = key
      · simp [put, same, isHead]
      · have inRest : key ∈ rest.map Prod.fst := by
          simpa [Ne.symm isHead] using isKey
        simp [put, same, isHead, ih inRest]

theorem put_put (value' : β) :
    Content.json.put key value' (Content.json.put key value entries)
      = Content.json.put key value' entries := by
  induction entries with
  | nil => simp [put, same]
  | cons entry rest ih =>
      obtain ⟨head, first⟩ := entry
      by_cases isHead : head = key
      · simp [put, same, isHead]
      · simp [put, same, isHead, ih]

/-- Putting an entry commutes with changing the values. -/
theorem map_put {γ : Type} (change : β → γ) :
    (Content.json.put key value entries).map (fun entry => (entry.1, change entry.2))
      = Content.json.put key (change value)
          (entries.map fun entry => (entry.1, change entry.2)) := by
  induction entries with
  | nil => rfl
  | cons entry rest ih =>
      rw [put, List.map_cons, put]
      by_cases isHead : entry.1 = key
      · simp [same, isHead]
      · simp [same, isHead, ih]

/-- Removing an entry commutes with changing the values. -/
theorem map_remove {γ : Type} (change : β → γ) :
    (Content.json.remove key entries).map (fun entry => (entry.1, change entry.2))
      = Content.json.remove key (entries.map fun entry => (entry.1, change entry.2)) := by
  rw [remove, remove, List.filter_map]
  rfl

theorem nodup_put {entries : List (String × β)} (distinct : (entries.map Prod.fst).Nodup) :
    ((Content.json.put key value entries).map Prod.fst).Nodup := by
  by_cases isKey : key ∈ entries.map Prod.fst
  · rwa [map_fst_put_of_mem value isKey]
  · rw [put_of_not_mem value isKey, List.map_append]
    exact distinct.append (List.nodup_singleton key) (by simpa using isKey)

/-- What has been put has taken the place of the entry of its key. -/
theorem mem_put_iff {entries : List (String × β)} (distinct : (entries.map Prod.fst).Nodup)
    {entry : String × β} :
    entry ∈ Content.json.put key value entries
      ↔ entry = (key, value) ∨ entry ∈ entries ∧ entry.1 ≠ key := by
  obtain ⟨wanted, found⟩ := entry
  rw [← Lookup.lookup_eq_some_iff (nodup_put key value distinct), lookup_put,
    ← Lookup.lookup_eq_some_iff distinct]
  by_cases isKey : wanted = key
  · simp [isKey, eq_comm]
  · simp [isKey]

theorem nodup_remove {entries : List (String × β)} (distinct : (entries.map Prod.fst).Nodup) :
    ((Content.json.remove key entries).map Prod.fst).Nodup :=
  distinct.sublist (List.filter_sublist.map _)

end Content

namespace Memory

variable (memory : Memory .json) (name : String) (collection : MemoryCollection .json)

theorem collection?_eq_lookup : memory.collection? name = memory.collections.lookup name :=
  Content.find?_json name memory.collections

end Memory

end DocStore

/-!
## Cabinets
-/

namespace DocStore

open Disk (Branch Entry)
open Files (Named Stored keyName)

/-- What lies at a place of a disk, whatever its identity. -/
inductive Node where
  | directory
  | file (content : String)
  | link (target : String)
deriving DecidableEq

/-- An entry without its identity. -/
def Disk.Entry.node : Entry → Node
  | .directory _ => .directory
  | .file _ content => .file content
  | .link target => .link target

/-- A collection with its documents and constraints, each under the name of its file. -/
abbrev Drawer : Type := MemoryCollection .json

/-- What a storage in files keeps. -/
abbrev Cabinet : Type := Memory .json

/-- The hidden directory for the files of locks. -/
def lockDirectory : String := ".locks"

/-- The start of a list that a limit allows, when some elements have been taken before. -/
def Storage.Limit.start {β : Type} (limit : Storage.Limit) (taken : Nat) (list : List β) : List β :=
  match limit with
  | .upTo most => list.take (most - taken)
  | _ => list

namespace Drawer

/-- The text of the file of a constraint. -/
def checkText (layout : Json.Layout) (check : Constraint) : String :=
  Json.canonicalText layout .alphabetical (StoredCheck.toJson ⟨check.name, check⟩)

/-- What lies below the directory of a collection. -/
def node? (layout : Json.Layout) (drawer : Drawer) : List String → Option Node
  | [] => some .directory
  | [part] => if part = "docs" ∨ part = "constraints" then some .directory else none
  | [part, file] =>
      if part = "docs" then
        (drawer.documents.lookup file).map fun document =>
          .file (Json.canonicalText layout .document document)
      else if part = "constraints" then
        (drawer.checks.lookup file).map fun check => .file (checkText layout check)
      else none
  | _ => none

/-- Documents and constraints are in order: each in the slot that belongs to it. -/
structure Slotted (slot : String → String) (drawer : Drawer) : Prop where
  documentsDistinct : (drawer.documents.map Prod.fst).Nodup
  checksDistinct : (drawer.checks.map Prod.fst).Nodup
  documents : ∀ place document, drawer.documents.lookup place = some document →
    document.WellFormed ∧ ∃ id, FileStore.documentId? document = some id ∧ place = slot id
  checks : ∀ place check, drawer.checks.lookup place = some check → place = slot check.name

/-- Documents and constraints are in order: each under the name of its own file. -/
abbrev Orderly (drawer : Drawer) : Prop := drawer.Slotted keyName

/-- The documents in the order of the names of their files. -/
def sorted (drawer : Drawer) : List (String × Json) :=
  Sorting.sort (fun first second => Text.before first.1 second.1) drawer.documents

/-- The constraints in the order of the names of their files. -/
def sortedChecks (drawer : Drawer) : List (String × Constraint) :=
  Sorting.sort (fun first second => Text.before first.1 second.1) drawer.checks

/-- The documents that a removal removes: those that contain a query, up to a limit. -/
def removal (drawer : Drawer) (query : Json) (limit : Storage.Limit) : List (String × Json) :=
  limit.start 0 (drawer.sorted.filter fun entry => Json.contains entry.2 query)

/-- The collection with a document in a slot. -/
def putAt (drawer : Drawer) (place : String) (document : Json) : Drawer :=
  { drawer with documents := Content.json.put place document drawer.documents }

/-- The collection with the document of an identifier. -/
def putDocument (drawer : Drawer) (id : String) (document : Json) : Drawer :=
  drawer.putAt (keyName id) document

/-- The collection with a constraint in a slot. -/
def putCheckAt (drawer : Drawer) (place : String) (check : Constraint) : Drawer :=
  { drawer with checks := Content.json.put place check drawer.checks }

/-- The collection with a constraint. -/
def putCheck (drawer : Drawer) (name : String) (check : Constraint) : Drawer :=
  drawer.putCheckAt (keyName name) check

/-- The collection without the documents of some files. -/
def withoutFiles (drawer : Drawer) (files : List String) : Drawer :=
  { drawer with documents := drawer.documents.filter fun entry => !files.contains entry.1 }

/-- The collection without the constraint of a file. -/
def withoutCheck (drawer : Drawer) (file : String) : Drawer :=
  { drawer with checks := Content.json.remove file drawer.checks }

end Drawer

namespace Cabinet

/-- The collection of a name. -/
def drawer? (cabinet : Cabinet) (name : String) : Option Drawer := cabinet.collections.lookup name

/-- The cabinet with a collection put under a name. -/
def putDrawer (cabinet : Cabinet) (name : String) (drawer : Drawer) : Cabinet :=
  cabinet.putCollection name drawer

/-- The cabinet without a collection. -/
def withoutDrawer (cabinet : Cabinet) (name : String) : Cabinet :=
  ⟨Content.json.remove name cabinet.collections⟩

/-- The cabinet with what is kept under a name replaced, or removed. -/
def setDrawer (cabinet : Cabinet) (name : String) : Option Drawer → Cabinet
  | some drawer => cabinet.putDrawer name drawer
  | none => cabinet.withoutDrawer name

/-- What lies below the root of a cabinet. -/
def node? (layout : Json.Layout) (cabinet : Cabinet) : List String → Option Node
  | [] => none
  | name :: rest => (cabinet.drawer? name).bind fun drawer => drawer.node? layout rest

/-- A cabinet is in order: each collection once, under a name that collections may have, and each
document and constraint in its slot. -/
structure Slotted (slot : String → String) (cabinet : Cabinet) : Prop where
  distinct : (cabinet.collections.map Prod.fst).Nodup
  each : ∀ name drawer, cabinet.drawer? name = some drawer → Named name ∧ drawer.Slotted slot

/-- A cabinet is in order, with documents and constraints under the names of their files. -/
abbrev Orderly (cabinet : Cabinet) : Prop := cabinet.Slotted keyName

/-- A document as it is read from its file. -/
def document? (cabinet : Cabinet) (name file : String) : Option Json :=
  (cabinet.drawer? name).bind fun drawer =>
    (drawer.documents.lookup file).map (Json.settled .document)

/-- The documents of a collection as they are read from their files. -/
def documents (cabinet : Cabinet) (name : String) : List Json :=
  match cabinet.drawer? name with
  | none => []
  | some drawer => drawer.sorted.map fun entry => Json.settled .document entry.2

/-- The constraints of a collection as they are read from their files. -/
def checks (cabinet : Cabinet) (name : String) : List (StoredCheck .json) :=
  match cabinet.drawer? name with
  | none => []
  | some drawer => drawer.sortedChecks.map fun entry => ⟨entry.2.name, entry.2⟩

/-- Why nothing can be written below a collection that does not exist. -/
def missing (path : Disk.Path) (name : String) : Failure :=
  .database ⟨.write path.text, some (.stated (Storage.missingMessage name))⟩

/-- Why a document cannot be kept whose file is there already. -/
def taken (path : Disk.Path) (name id : String) : Failure :=
  .database ⟨.duplicateId (.ofString name) (.ofString id), some (.fileExists path.text)⟩

/-- What an operation of a storage in files does to what it keeps. -/
def perform (store : FileStore) (cabinet : Cabinet) : (op : Storage.Op .json) → op.Answer × Cabinet
  | .exists name => (.ok (cabinet.drawer? name).isSome, cabinet)
  | .create name =>
      match cabinet.drawer? name with
      | some _ => (.ok false, cabinet)
      | none => (.ok true, cabinet.putDrawer name ⟨[], []⟩)
  | .drop name =>
      match cabinet.drawer? name with
      | some _ => (.ok true, cabinet.withoutDrawer name)
      | none => (.ok false, cabinet)
  | .collections => (.ok (Sorting.sort Text.before (cabinet.collections.map Prod.fst)), cabinet)
  | .put name id document =>
      match cabinet.drawer? name with
      | none => (.error (missing (store.documentPath name id) name), cabinet)
      | some drawer =>
          if (drawer.documents.lookup (keyName id)).isSome then
            (.error (taken (store.documentPath name id) name id), cabinet)
          else (.ok (), cabinet.putDrawer name (drawer.putDocument id document))
  | .get name id =>
      (.ok ((cabinet.document? name (keyName id)).filter fun document =>
        FileStore.documentId? document == some id), cabinet)
  | .replace name id document =>
      match cabinet.drawer? name with
      | none => (.ok false, cabinet)
      | some drawer =>
          if (drawer.documents.lookup (keyName id)).isSome then
            (.ok true, cabinet.putDrawer name (drawer.putDocument id document))
          else (.ok false, cabinet)
  | .scan name query =>
      (.ok ((cabinet.documents name).filter fun document => Json.contains document query), cabinet)
  | .deleteMatching name query limit =>
      match cabinet.drawer? name with
      | none => (.ok [], cabinet)
      | some drawer =>
          let gone := drawer.removal query limit
          (.ok (gone.map fun entry => Json.settled .document entry.2),
            cabinet.putDrawer name (drawer.withoutFiles (gone.map Prod.fst)))
  | .deleteById name id =>
      match cabinet.drawer? name with
      | none => (.ok false, cabinet)
      | some drawer =>
          (.ok (drawer.documents.lookup (keyName id)).isSome,
            cabinet.putDrawer name (drawer.withoutFiles [keyName id]))
  | .addCheck name key check =>
      match cabinet.drawer? name with
      | none => (.error (missing (store.checkPath name key) name), cabinet)
      | some drawer =>
          if (drawer.checks.lookup (keyName key)).isSome then (.ok false, cabinet)
          else (.ok true, cabinet.putDrawer name (drawer.putCheck key check))
  | .dropCheck name key =>
      match cabinet.drawer? name with
      | none => (.ok false, cabinet)
      | some drawer =>
          (.ok (drawer.checks.lookup (keyName key)).isSome,
            cabinet.putDrawer name (drawer.withoutCheck (keyName key)))
  | .checks name => (.ok (cabinet.checks name), cabinet)
  | .close => (.ok (), cabinet)

end Cabinet

@[simp] theorem Storage.Limit.start_nil (limit : Storage.Limit) {β : Type} (taken : Nat) :
    limit.start taken ([] : List β) = [] := by
  cases limit <;> simp [start]

theorem Storage.Limit.start_map (limit : Storage.Limit) {β γ : Type} (change : β → γ) (taken : Nat)
    (list : List β) : limit.start taken (list.map change) = (limit.start taken list).map change := by
  cases limit <;> simp [start]

/-- A limit that has been reached stays reached. -/
theorem Storage.Limit.reached_add {limit : Storage.Limit} {taken : Nat}
    (isReached : limit.reached taken = .ok true) (more : Nat) :
    limit.reached (taken + more) = .ok true := by
  cases limit with
  | none | incomparable => cases isReached
  | upTo most =>
      simp only [reached, Except.ok.injEq, decide_eq_true_eq] at isReached ⊢
      omega

/-- A list with which a limit is not reached is allowed as a whole. -/
theorem Storage.Limit.start_eq_self {limit : Storage.Limit} {β : Type} {list : List β}
    (notReached : limit.reached list.length = .ok false) : limit.start 0 list = list := by
  cases limit with
  | none | incomparable => rfl
  | upTo most =>
      simp only [reached, Except.ok.injEq, decide_eq_false_iff_not, Nat.not_le] at notReached
      exact List.take_of_length_le (by omega)

/-- A limit is reached and allows nothing more, or it allows one more element. -/
theorem Storage.Limit.reached_or {limit : Storage.Limit} (comparable : limit ≠ .incomparable)
    (β : Type) (taken : Nat) :
    (limit.reached taken = .ok true ∧ ∀ list : List β, limit.start taken list = [])
      ∨ (limit.reached taken = .ok false ∧ ∀ (head : β) (rest : List β),
        limit.start taken (head :: rest) = head :: limit.start (taken + 1) rest) := by
  cases limit with
  | none => exact .inr ⟨rfl, fun _ _ => rfl⟩
  | incomparable => exact absurd rfl comparable
  | upTo most =>
      by_cases isReached : most ≤ taken
      · refine .inl ⟨by simp [reached, isReached], fun list => ?_⟩
        rw [start, Nat.sub_eq_zero_of_le isReached, List.take_zero]
      · refine .inr ⟨by simp [reached, isReached], fun head rest => ?_⟩
        have more : most - taken = most - (taken + 1) + 1 := by omega
        rw [start, start, more, List.take_succ_cons]

/-! ## Identifiers of documents -/

namespace FileStore

theorem documentId?_settled {document : Json} (wellFormed : document.WellFormed) :
    documentId? (Json.settled .document document) = documentId? document := by
  rw [documentId?, documentId?, Json.field?_settled _ wellFormed]
  cases document.field? "_id" with
  | none => rfl
  | some value => exact Json.string?_settled _ value

/-- A value with an identifier is an object. -/
theorem exists_fields_of_documentId? {value : Json} {id : String}
    (isId : documentId? value = some id) : ∃ fields, value = .object fields := by
  cases value with
  | object fields => exact ⟨fields, rfl⟩
  | leaf _ | array _ => cases isId

end FileStore

/-! ## Collections -/

namespace Drawer

variable {drawer : Drawer} {file : String}

section

variable {slot : String → String}

theorem slotted_empty : Slotted slot ⟨[], []⟩ :=
  ⟨List.nodup_nil, List.nodup_nil, fun _ _ found => absurd found (by simp),
    fun _ _ found => absurd found (by simp)⟩

/-- Every document has an identifier, in whose slot it is. -/
theorem Slotted.of_mem_documents (slotted : drawer.Slotted slot) {entry : String × Json}
    (member : entry ∈ drawer.documents) :
    entry.2.WellFormed ∧ ∃ id, FileStore.documentId? entry.2 = some id ∧ entry.1 = slot id :=
  slotted.documents entry.1 entry.2
    ((Lookup.lookup_eq_some_iff slotted.documentsDistinct).mpr member)

/-- Every constraint is in the slot of its name. -/
theorem Slotted.of_mem_checks (slotted : drawer.Slotted slot) {entry : String × Constraint}
    (member : entry ∈ drawer.checks) : entry.1 = slot entry.2.name :=
  slotted.checks entry.1 entry.2 ((Lookup.lookup_eq_some_iff slotted.checksDistinct).mpr member)

theorem Slotted.putAt (slotted : drawer.Slotted slot) {id : String} {document : Json}
    (wellFormed : document.WellFormed) (isId : FileStore.documentId? document = some id) :
    (drawer.putAt (slot id) document).Slotted slot where
  documentsDistinct := Content.nodup_put _ _ slotted.documentsDistinct
  checksDistinct := slotted.checksDistinct
  documents place document' found := by
    rw [Drawer.putAt, Content.lookup_put] at found
    split at found
    next isPlace =>
      obtain rfl : document = document' := Option.some.inj found
      exact ⟨wellFormed, id, isId, isPlace⟩
    next => exact slotted.documents place document' found
  checks := slotted.checks

theorem Slotted.putCheckAt (slotted : drawer.Slotted slot) (check : Constraint) :
    (drawer.putCheckAt (slot check.name) check).Slotted slot where
  documentsDistinct := slotted.documentsDistinct
  checksDistinct := Content.nodup_put _ _ slotted.checksDistinct
  documents := slotted.documents
  checks place check' found := by
    rw [Drawer.putCheckAt, Content.lookup_put] at found
    split at found
    next isPlace =>
      obtain rfl : check = check' := Option.some.inj found
      exact isPlace
    next => exact slotted.checks place check' found

end

theorem lookup_withoutFiles (files : List String) (file : String) :
    (drawer.withoutFiles files).documents.lookup file
      = if file ∈ files then none else drawer.documents.lookup file := by
  refine (Lookup.lookup_filter (fun file => !files.contains file) drawer.documents file).trans ?_
  by_cases gone : file ∈ files <;> simp [gone]

theorem Slotted.withoutFiles {slot : String → String} (slotted : drawer.Slotted slot)
    (files : List String) : (drawer.withoutFiles files).Slotted slot where
  documentsDistinct := slotted.documentsDistinct.sublist (List.filter_sublist.map _)
  checksDistinct := slotted.checksDistinct
  documents file document found := by
    rw [lookup_withoutFiles] at found
    split at found
    · cases found
    · exact slotted.documents file document found
  checks := slotted.checks

theorem Slotted.withoutCheck {slot : String → String} (slotted : drawer.Slotted slot)
    (file : String) : (drawer.withoutCheck file).Slotted slot where
  documentsDistinct := slotted.documentsDistinct
  checksDistinct := Content.nodup_remove _ slotted.checksDistinct
  documents := slotted.documents
  checks other check found := by
    rw [Drawer.withoutCheck, Content.lookup_remove] at found
    split at found
    · cases found
    · exact slotted.checks other check found

theorem map_fst_sorted (drawer : Drawer) :
    drawer.sorted.map Prod.fst = Sorting.sort Text.before (drawer.documents.map Prod.fst) :=
  Sorting.map_sort Text.before Prod.fst drawer.documents

theorem sorted_perm (drawer : Drawer) : drawer.sorted.Perm drawer.documents :=
  Sorting.sort_perm _ _

theorem sortedChecks_perm (drawer : Drawer) : drawer.sortedChecks.Perm drawer.checks :=
  Sorting.sort_perm _ _

section

variable (layout : Json.Layout) (drawer file)

theorem node?_document : drawer.node? layout ["docs", file]
    = (drawer.documents.lookup file).map fun document =>
        .file (Json.canonicalText layout .document document) := by
  rw [node?, if_pos rfl]

theorem node?_check : drawer.node? layout ["constraints", file]
    = (drawer.checks.lookup file).map fun check => .file (checkText layout check) := by
  rw [node?, if_neg (by decide), if_pos rfl]

/-- Only the file of a document changes when its entry does. -/
theorem node?_documents {documents : List (String × Json)} (found : Option Json)
    (changed : ∀ other, documents.lookup other
      = if other = file then found else drawer.documents.lookup other) :
    node? layout { drawer with documents }
      = Function.update (drawer.node? layout) ["docs", file]
          (found.map fun document => .file (Json.canonicalText layout .document document)) := by
  funext names
  rw [Function.update_apply]
  match names with
  | [] => rfl
  | [part] => simp [node?]
  | [part, other] =>
      by_cases isPart : part = "docs"
      · subst isPart
        by_cases isFile : other = file <;> simp [node?, changed, isFile]
      · simp [node?, isPart]
  | _ :: _ :: _ :: _ => simp [node?]

/-- Only the file of a constraint changes when its entry does. -/
theorem node?_checks {checks : List (String × Constraint)} (found : Option Constraint)
    (changed : ∀ other, checks.lookup other
      = if other = file then found else drawer.checks.lookup other) :
    node? layout { drawer with checks }
      = Function.update (drawer.node? layout) ["constraints", file]
          (found.map fun check => .file (checkText layout check)) := by
  funext names
  rw [Function.update_apply]
  match names with
  | [] => rfl
  | [part] => simp [node?]
  | [part, other] =>
      by_cases isPart : part = "constraints"
      · subst isPart
        by_cases isFile : other = file <;> simp [node?, changed, isFile]
      · simp [node?, isPart]
  | _ :: _ :: _ :: _ => simp [node?]

theorem node?_putDocument (id : String) (document : Json) :
    (drawer.putDocument id document).node? layout
      = Function.update (drawer.node? layout) ["docs", keyName id]
          (some (.file (Json.canonicalText layout .document document))) :=
  drawer.node?_documents (keyName id) layout (some document) (Content.lookup_put _ _ _)

theorem node?_withoutFile :
    (drawer.withoutFiles [file]).node? layout
      = Function.update (drawer.node? layout) ["docs", file] none :=
  drawer.node?_documents file layout none fun other =>
    (lookup_withoutFiles [file] other).trans (by simp only [List.mem_singleton])

theorem node?_putCheck (name : String) (check : Constraint) :
    (drawer.putCheck name check).node? layout
      = Function.update (drawer.node? layout) ["constraints", keyName name]
          (some (.file (checkText layout check))) :=
  drawer.node?_checks (keyName name) layout (some check) (Content.lookup_put _ _ _)

theorem node?_withoutCheck :
    (drawer.withoutCheck file).node? layout
      = Function.update (drawer.node? layout) ["constraints", file] none :=
  drawer.node?_checks file layout none (Content.lookup_remove _ _)

end

/-- Files are left out one after another. -/
theorem withoutFiles_cons (drawer : Drawer) (file : String) (files : List String) :
    drawer.withoutFiles (file :: files) = (drawer.withoutFiles [file]).withoutFiles files := by
  simp [withoutFiles, List.filter_filter, Bool.and_comm]

theorem withoutFiles_nil (drawer : Drawer) : drawer.withoutFiles [] = drawer := by
  simp [withoutFiles]

end Drawer

namespace Cabinet

variable {cabinet : Cabinet} {name : String} {drawer : Drawer}

theorem drawer?_putDrawer (wanted : String) :
    (cabinet.putDrawer name drawer).drawer? wanted
      = if wanted = name then some drawer else cabinet.drawer? wanted :=
  Content.lookup_put _ _ _ _

theorem putDrawer_putDrawer (cabinet : Cabinet) (name : String) (drawer drawer' : Drawer) :
    (cabinet.putDrawer name drawer).putDrawer name drawer' = cabinet.putDrawer name drawer' := by
  unfold putDrawer Memory.putCollection
  rw [Content.put_put]

theorem slotted_empty {slot : String → String} : Slotted slot Memory.empty :=
  ⟨List.nodup_nil, fun _ _ found => nomatch found⟩

theorem Slotted.putDrawer {slot : String → String} (slotted : cabinet.Slotted slot)
    (named : Named name) (drawerSlotted : drawer.Slotted slot) :
    (cabinet.putDrawer name drawer).Slotted slot where
  distinct := Content.nodup_put _ _ slotted.distinct
  each other found isFound := by
    rw [drawer?_putDrawer] at isFound
    split at isFound
    next same =>
      obtain rfl : drawer = found := Option.some.inj isFound
      exact ⟨same ▸ named, drawerSlotted⟩
    next => exact slotted.each other found isFound

theorem drawer?_withoutDrawer (cabinet : Cabinet) (name wanted : String) :
    (cabinet.withoutDrawer name).drawer? wanted
      = if wanted = name then none else cabinet.drawer? wanted :=
  Content.lookup_remove _ _ _

theorem Slotted.withoutDrawer {slot : String → String} (slotted : cabinet.Slotted slot)
    (name : String) : (cabinet.withoutDrawer name).Slotted slot where
  distinct := Content.nodup_remove _ slotted.distinct
  each other found isFound := by
    rw [drawer?_withoutDrawer] at isFound
    split at isFound
    · cases isFound
    · exact slotted.each other found isFound

theorem drawer?_setDrawer (cabinet : Cabinet) (name : String) (drawer : Option Drawer)
    (wanted : String) : (cabinet.setDrawer name drawer).drawer? wanted
      = if wanted = name then drawer else cabinet.drawer? wanted := by
  cases drawer with
  | some drawer => exact drawer?_putDrawer wanted
  | none => exact drawer?_withoutDrawer cabinet name wanted

theorem Slotted.setDrawer {slot : String → String} (slotted : cabinet.Slotted slot)
    {drawer : Option Drawer} (each : ∀ kept, drawer = some kept → Named name ∧ kept.Slotted slot) :
    (cabinet.setDrawer name drawer).Slotted slot := by
  cases drawer with
  | some drawer => exact slotted.putDrawer (each drawer rfl).1 (each drawer rfl).2
  | none => exact slotted.withoutDrawer name

theorem node?_putDrawer (layout : Json.Layout) (other : String) (rest : List String) :
    (cabinet.putDrawer name drawer).node? layout (other :: rest)
      = if other = name then drawer.node? layout rest else cabinet.node? layout (other :: rest) := by
  rw [node?, node?, drawer?_putDrawer]
  split <;> rfl

theorem node?_withoutDrawer (layout : Json.Layout) (name other : String) (rest : List String) :
    (cabinet.withoutDrawer name).node? layout (other :: rest)
      = if other = name then none else cabinet.node? layout (other :: rest) := by
  rw [node?, node?, drawer?_withoutDrawer]
  split <;> rfl

end Cabinet

/-- What the database asks of a storage: it uses names that collections may have, documents under
their own identifiers and constraints under their own names. -/
def Storage.Op.Fits : Storage.Op .json → Prop
  | .exists name | .create name | .drop name | .get name _ | .scan name _ | .deleteById name _
  | .dropCheck name _ | .checks name => Named name
  | .put name id document | .replace name id document =>
      Named name ∧ document.WellFormed ∧ FileStore.documentId? document = some id
  | .deleteMatching name _ limit => Named name ∧ limit ≠ .incomparable
  | .addCheck name key check => Named name ∧ key = check.name
  | .collections | .close => True

/-- An operation that only reads. -/
def Storage.Op.Reads {content : Content} : Storage.Op content → Prop
  | .exists _ | .collections | .get _ _ | .scan _ _ | .checks _ => True
  | _ => False

/-- An operation that concerns what lies under some first names and nothing else. -/
def Storage.Op.Within (heads : Set String) : Storage.Op .json → Prop
  | .exists name | .create name | .drop name | .checks name => name ∈ heads
  | .put name _ _ | .get name _ | .replace name _ _ | .deleteById name _ => name ∈ heads
  | .scan name _ | .deleteMatching name _ _ => name ∈ heads
  | .addCheck name _ _ | .dropCheck name _ => name ∈ heads
  | .collections => ∀ name, name ∈ heads
  | .close => True

theorem Storage.Op.within_univ (op : Storage.Op .json) : op.Within Set.univ := by
  cases op with
  | collections => exact fun name => Set.mem_univ name
  | close => exact trivial
  | _ => exact Set.mem_univ _

namespace Cabinet

variable {cabinet : Cabinet}

/-- **A cabinet stays in order** whatever the database asks of it. -/
theorem perform_orderly (store : FileStore) (orderly : cabinet.Orderly) {op : Storage.Op .json}
    (fits : op.Fits) : (cabinet.perform store op).2.Orderly := by
  cases op with
  | «exists» | collections | get | scan | checks | close => exact orderly
  | create name =>
      unfold perform
      dsimp only
      split
      · exact orderly
      · exact orderly.putDrawer fits Drawer.slotted_empty
  | drop name =>
      unfold perform
      dsimp only
      split
      · exact orderly.withoutDrawer name
      · exact orderly
  | put name id document =>
      obtain ⟨named, wellFormed, isId⟩ := fits
      unfold perform
      dsimp only
      split
      · exact orderly
      next there =>
        split
        · exact orderly
        · exact orderly.putDrawer named ((orderly.each _ _ there).2.putAt wellFormed isId)
  | replace name id document =>
      obtain ⟨named, wellFormed, isId⟩ := fits
      unfold perform
      dsimp only
      split
      · exact orderly
      next there =>
        split
        · exact orderly.putDrawer named ((orderly.each _ _ there).2.putAt wellFormed isId)
        · exact orderly
  | deleteMatching name query limit =>
      unfold perform
      dsimp only
      split
      · exact orderly
      next there => exact orderly.putDrawer fits.1 ((orderly.each _ _ there).2.withoutFiles _)
  | deleteById name id =>
      unfold perform
      dsimp only
      split
      · exact orderly
      next there => exact orderly.putDrawer fits ((orderly.each _ _ there).2.withoutFiles _)
  | addCheck name key check =>
      obtain ⟨named, rfl⟩ := fits
      unfold perform
      dsimp only
      split
      · exact orderly
      next there =>
        split
        · exact orderly
        · exact orderly.putDrawer named ((orderly.each _ _ there).2.putCheckAt check)
  | dropCheck name key =>
      unfold perform
      dsimp only
      split
      · exact orderly
      next there => exact orderly.putDrawer fits ((orderly.each _ _ there).2.withoutCheck _)

/-- What reads leaves a cabinet as it is. -/
theorem perform_reads (store : FileStore) (cabinet : Cabinet) {op : Storage.Op .json}
    (reads : op.Reads) : (cabinet.perform store op).2 = cabinet := by
  cases op with
  | «exists» | collections | get | scan | checks => rfl
  | create | drop | put | replace | deleteMatching | deleteById | addCheck | dropCheck | close =>
      exact reads.elim

/-- **What an operation does to one collection** depends on that collection alone. -/
theorem perform_local (store : FileStore) {cabinet' : Cabinet} {name : String}
    (same : cabinet.drawer? name = cabinet'.drawer? name) {op : Storage.Op .json}
    (within : op.Within {name}) :
    (cabinet.perform store op).1 = (cabinet'.perform store op).1
      ∧ (cabinet.perform store op).2.drawer? name = (cabinet'.perform store op).2.drawer? name := by
  cases op with
  | collections =>
      -- A name cannot be every name.
      have first := Set.mem_singleton_iff.mp (within "")
      have second := Set.mem_singleton_iff.mp (within "x")
      exact absurd (first.trans second.symm) (by decide)
  | close => exact ⟨rfl, same⟩
  | «exists» | get | scan | checks =>
      obtain rfl := Set.mem_singleton_iff.mp within
      simp only [perform, document?, documents, Cabinet.checks, same, and_self]
  | create | drop | put | replace | deleteMatching | deleteById | addCheck | dropCheck =>
      obtain rfl := Set.mem_singleton_iff.mp within
      simp only [perform, same]
      cases there : cabinet'.drawer? _ with
      | none => simp only [same, there, drawer?_putDrawer, if_pos, and_self]
      | some drawer =>
          dsimp only
          first
            | split <;> simp only [same, there, drawer?_putDrawer, if_pos, and_self]
            | simp only [same, there, drawer?_putDrawer, drawer?_withoutDrawer, if_pos, and_self]

end Cabinet

end DocStore
