import DocStore.Proofs.Files.Listings
import DocStore.Proofs.Host.Along
/-!
# What can be seen of a collection at one moment

A program that only looks, while others change a collection, sees at each moment the identity of the
directory for its documents, the names of their files and the document of each file: a glimpse of
the collection.  Where the collection is whole its glimpse is in order (`Glimpse.Orderly`), and no
question that a machine is asked about it fails (`Whole.clear`).
-/

set_option autoImplicit false

namespace DocStore

open Disk (Branch Entry Path Place Plain Shows Vacant)
open Files (Named isHidden keyName storedEnding)
open Host (Action Along Machine Once Secures)

/-- What can be seen of a collection at one moment. -/
structure Glimpse where
  /-- The identity of the directory for its documents, where there is one. -/
  shelf : Option Nat
  /-- The names of the files of its documents. -/
  files : List String
  /-- The document of a file, where there is one. -/
  document? : String → Option Json

/-- What a machine tells of a collection when it is asked at one moment. -/
def FileStore.glimpse (store : FileStore) (name : String) (machine : Machine) : Glimpse where
  shelf := (machine.attempt (Files.directoryIdentity (store.documentsPath name))).1.toOption.join
  files :=
    (machine.attempt (Files.listFiles (store.documentsPath name) storedEnding)).1.toOption.getD []
  document? file := (machine.attempt
    (FileStore.readDocumentFile ((store.documentsPath name).child file))).1.toOption.join

theorem FileStore.glimpse_document? (store : FileStore) (name id : String) (machine : Machine) :
    (store.glimpse name machine).document? (keyName id)
      = (machine.attempt
          (FileStore.readDocumentFile (store.documentPath name id))).1.toOption.join := by
  simp only [FileStore.glimpse, FileStore.documentPath]

namespace Glimpse

/-- The documents of the files. -/
def documents (glimpse : Glimpse) : List Json := glimpse.files.filterMap glimpse.document?

/-- Each document is in a file of its own that is listed, and there is a directory for the files. -/
structure Orderly (glimpse : Glimpse) : Prop where
  distinct : glimpse.files.Nodup
  named : ∀ file ∈ glimpse.files, ∃ id, file = keyName id
  shelved : ∀ file ∈ glimpse.files, glimpse.shelf ≠ none
  listed : ∀ id document, glimpse.document? (keyName id) = some document →
    keyName id ∈ glimpse.files
  keyed : ∀ id document, glimpse.document? (keyName id) = some document →
    ∃ id', FileStore.documentId? document = some id' ∧ keyName id' = keyName id

namespace Orderly

variable {glimpse : Glimpse} (orderly : glimpse.Orderly)
include orderly

/-- What is in a file is known from the documents. -/
theorem document?_eq_some_iff {id : String} {document : Json} :
    glimpse.document? (keyName id) = some document ↔ document ∈ glimpse.documents
      ∧ ∃ id', FileStore.documentId? document = some id' ∧ keyName id' = keyName id := by
  constructor
  · intro isDocument
    exact ⟨List.mem_filterMap.mpr ⟨_, orderly.listed id document isDocument, isDocument⟩,
      orderly.keyed id document isDocument⟩
  · rintro ⟨member, id', isId, isKey⟩
    obtain ⟨file, isFile, isDocument⟩ := List.mem_filterMap.mp member
    obtain ⟨other, rfl⟩ := orderly.named file isFile
    obtain ⟨id'', isId', isKey'⟩ := orderly.keyed other document isDocument
    obtain rfl : id' = id'' := Option.some.inj (isId.symm.trans isId')
    rwa [← isKey, isKey']

end Orderly

end Glimpse

/-- Nothing that a machine is asked about a collection fails, and what it tells is in order. -/
structure Clear (store : FileStore) (name : String) (machine : Machine) : Prop where
  stands : (machine.attempt (store.exists? name)).1 = .ok (store.glimpse name machine).shelf.isSome
  shelf : (machine.attempt (Files.directoryIdentity (store.documentsPath name))).1
    = .ok (store.glimpse name machine).shelf
  files : (machine.attempt (Files.listFiles (store.documentsPath name) storedEnding)).1
    = .ok (store.glimpse name machine).files
  document : ∀ id, (machine.attempt (FileStore.readDocumentFile (store.documentPath name id))).1
    = .ok ((store.glimpse name machine).document? (keyName id))
  orderly : (store.glimpse name machine).Orderly

/-! ## Whole collections -/

namespace Whole

variable {layouts : Set Json.Layout} (store : FileStore) {origin : Disk} {home : Place}
  {name : String} {branch : Branch} {machine : Machine}
  (whole : Whole layouts branch name) (vacant : Vacant origin store.root home)
  (shows : Shows origin home branch machine.disk) (named : Named name)
include whole

/-- The directory for the documents of a collection is there as a whole or not at all. -/
theorem shelf_cases : shelf? branch name = none ∧ branch [name] = none
    ∨ ∃ identity, shelf? branch name = some identity ∧ branch.Leads [name]
      ∧ branch ([name] ++ ["docs"]) = some (.directory identity) := by
  rcases whole.standing with ⟨missing, nothing⟩ | ⟨top, identity, isTop, isShelf⟩
  · exact .inl ⟨by rw [shelf?, nothing], missing⟩
  · exact .inr ⟨identity, shelf?_eq_some_iff.mpr isShelf, (Branch.leads_nil branch).concat isTop,
      isShelf⟩

omit whole in
theorem absent (missing : branch [name] = none) (rest : List String) :
    branch.Absent (name :: rest) :=
  ⟨[], name, rest, rfl, Branch.leads_nil branch, missing⟩

/-- All files that are not hidden are those of documents. -/
theorem exists_key {file : String} {entry : Entry} (seen : isHidden file = false)
    (found : branch [name, "docs", file] = some entry) :
    entry.kind = .file ∧ ∃ id, file = keyName id := by
  obtain ⟨identity, _, _, _, id, rfl, _, _, isKey⟩ := whole.readable file entry seen found
  exact ⟨rfl, id, isKey⟩

include vacant shows named

theorem attempt_directoryIdentity :
    (machine.attempt (Files.directoryIdentity (store.documentsPath name))).1
      = .ok (shelf? branch name) := by
  have plain := named.plain_documents
  rw [FileStore.documentsPath, FileStore.partPath_eq vacant.resolved named]
  rcases whole.shelf_cases with ⟨isNone, missing⟩ | ⟨identity, isSome, leads, isDirectory⟩
  · rw [isNone]
    have secures : Secures (Advances layouts) origin home Set.univ branch _ (.ok none)
        (Eq branch) :=
      .directoryIdentity_absent vacant (absent missing ["docs"]) (Set.mem_univ name) plain
        (show 2 ≤ 3 by decide)
    exact secures.attempt_eq shows
  · rw [isSome]
    have secures : Secures (Advances layouts) origin home Set.univ branch _ (.ok (some identity))
        (Eq branch) :=
      .directoryIdentity_directory vacant leads (Set.mem_univ name) plain (show 1 < 3 by decide)
        isDirectory
    exact secures.attempt_eq shows

theorem attempt_exists? :
    (machine.attempt (store.exists? name)).1 = .ok (shelf? branch name).isSome := by
  have plain := named.plain_documents
  rw [FileStore.exists?, FileStore.documentsPath, FileStore.partPath_eq vacant.resolved named]
  rcases whole.shelf_cases with ⟨isNone, missing⟩ | ⟨identity, isSome, leads, isDirectory⟩
  · rw [isNone]
    have secures : Secures (Advances layouts) origin home Set.univ branch _ (.ok false)
        (Eq branch) :=
      .isDirectory_absent vacant (absent missing ["docs"]) (Set.mem_univ name) plain
        (show 2 ≤ 3 by decide)
    exact secures.attempt_eq shows
  · rw [isSome]
    have secures : Secures (Advances layouts) origin home Set.univ branch _ (.ok true)
        (Eq branch) :=
      .isDirectory_directory vacant leads (Set.mem_univ name) plain (show 1 < 3 by decide)
        isDirectory
    exact secures.attempt_eq shows

/-- The files that are listed are those that are not hidden. -/
theorem attempt_listFiles : ∃ files,
    (machine.attempt (Files.listFiles (store.documentsPath name) storedEnding)).1 = .ok files
      ∧ files.Nodup ∧ ∀ file, file ∈ files
        ↔ isHidden file = false ∧ ∃ entry, shelf? branch name ≠ none
          ∧ branch [name, "docs", file] = some entry := by
  have plain := named.plain_documents
  rw [FileStore.documentsPath, FileStore.partPath_eq vacant.resolved named]
  rcases whole.shelf_cases with ⟨isNone, missing⟩ | ⟨identity, isSome, leads, isDirectory⟩
  · refine ⟨[], ?_, List.nodup_nil, fun file => by simp [isNone]⟩
    have secures : Secures (Advances layouts) origin home Set.univ branch
        (Files.listFiles (store.root.trimmed ++ ([name] ++ ["docs"])) storedEnding) (.ok [])
        (Eq branch) :=
      .bind_same (.listEntries_absent vacant (absent missing ["docs"]) (Set.mem_univ name) plain
        (show 2 ≤ 3 by decide) .file) (.pure [] rfl)
    exact secures.attempt_eq shows
  · obtain ⟨listed, _, lists⟩ := shows.list_directory vacant leads plain (show 1 < 3 by decide)
      isDirectory
    have distinct := lists.nodup_ofKind .file
    have sorted := Sorting.sort_perm Text.before
      ((listed.filter fun entry => entry.2 == .file).map Prod.fst)
    have secures : Secures (Advances layouts) origin home Set.univ branch
        (Files.listFiles (store.root.trimmed ++ ([name] ++ ["docs"])) storedEnding) (.ok _)
        (Eq branch) :=
      .bind_same (.listEntries_directory vacant leads (Set.mem_univ name) plain
        (show 1 < 3 by decide) isDirectory _ distinct fun file => lists.mem_ofKind .file file)
        (.pure _ rfl)
    refine ⟨_, secures.attempt_eq shows, (sorted.nodup_iff.mpr distinct).filter _, fun file => ?_⟩
    rw [List.mem_filter, sorted.mem_iff, lists.mem_ofKind]
    constructor
    · rintro ⟨⟨entry, found, _⟩, visible⟩
      have seen : isHidden file = false := by
        by_contra hidden
        simp [hidden] at visible
      exact ⟨seen, entry, by simp [isSome], found⟩
    · rintro ⟨seen, entry, _, found⟩
      obtain ⟨isFile, id, rfl⟩ := whole.exists_key seen found
      refine ⟨⟨entry, found, isFile⟩, ?_⟩
      simp [seen, (Files.stored_keyName id).ends]

/-- A file that can be read is read as a document. -/
theorem attempt_readDocumentFile (blank : ∀ layout ∈ layouts, layout.Blank) (id : String) :
    ∃ document?, (machine.attempt (FileStore.readDocumentFile (store.documentPath name id))).1
        = .ok document?
      ∧ ∀ document, document? = some document →
        (shelf? branch name ≠ none ∧ ∃ entry, branch [name, "docs", keyName id] = some entry)
          ∧ ∃ id', FileStore.documentId? document = some id' ∧ keyName id' = keyName id := by
  have stored := Files.stored_keyName id
  have plain := named.plain_names (.inl rfl) stored.plain
  rw [FileStore.documentPath_eq vacant named]
  have nothing (absent : branch.Absent ([name, "docs"] ++ [keyName id])) :
      (machine.attempt (FileStore.readDocumentFile
        (store.root.trimmed ++ ([name, "docs"] ++ [keyName id])))).1 = .ok none := by
    have secures : Secures (Advances layouts) origin home Set.univ branch
        (FileStore.readDocumentFile (store.root.trimmed ++ ([name, "docs"] ++ [keyName id])))
        (.ok none) (Eq branch) :=
      .bind_same (FileStore.readJson_absent (.readDocument_absent vacant absent (Set.mem_univ name)
        plain (show 3 ≤ 3 by decide))) (.pure none rfl)
    exact secures.attempt_eq shows
  rcases whole.shelf_cases with ⟨isNone, missing⟩ | ⟨identity, isSome, leads, isDirectory⟩
  · exact ⟨none, nothing (absent missing ["docs", keyName id]), fun document same => nomatch same⟩
  · have leads := leads.concat isDirectory
    cases found : branch [name, "docs", keyName id] with
    | none =>
        refine ⟨none, nothing ⟨[name, "docs"], keyName id, [], rfl, leads, found⟩,
          fun document same => nomatch same⟩
    | some entry =>
        obtain ⟨identity', layout, member, document, id', rfl, wellFormed, isId, isKey⟩ :=
          whole.readable (keyName id) entry stored.seen found
        have secures : Secures (Advances layouts) origin home Set.univ branch _
            (.ok (some (Json.settled .document document))) (Eq branch) :=
          FileStore.readDocumentFile_text (blank layout member) wellFormed isId
            (.readDocument_file vacant leads (Set.mem_univ name) plain (show 2 < 3 by decide) found)
        refine ⟨_, secures.attempt_eq shows, fun settled same => ?_⟩
        cases same
        exact ⟨⟨by simp [isSome], _, rfl⟩, id',
          (FileStore.documentId?_settled wellFormed).trans isId, isKey.symm⟩

/-- **Where a collection is whole nothing that is asked about it fails.** -/
theorem clear (blank : ∀ layout ∈ layouts, layout.Blank) :
    Clear store name machine ∧ (store.glimpse name machine).shelf = shelf? branch name := by
  have identified := whole.attempt_directoryIdentity store vacant shows named
  have isShelf : (store.glimpse name machine).shelf = shelf? branch name := by
    simp only [FileStore.glimpse, identified, Except.toOption, Option.join_some]
  obtain ⟨files, lists, distinct, listed⟩ := whole.attempt_listFiles store vacant shows named
  have areFiles : (store.glimpse name machine).files = files := by
    simp only [FileStore.glimpse, lists, Except.toOption, Option.getD_some]
  have reads (id : String) := whole.attempt_readDocumentFile store vacant shows named blank id
  have told (id : String) :
      (machine.attempt (FileStore.readDocumentFile (store.documentPath name id))).1
        = .ok ((store.glimpse name machine).document? (keyName id)) := by
    obtain ⟨document?, reads, _⟩ := reads id
    rw [store.glimpse_document?, reads, Except.toOption, Option.join_some]
  have known {id : String} {document : Json}
      (isDocument : (store.glimpse name machine).document? (keyName id) = some document) :
      (shelf? branch name ≠ none ∧ ∃ entry, branch [name, "docs", keyName id] = some entry)
        ∧ ∃ id', FileStore.documentId? document = some id' ∧ keyName id' = keyName id := by
    obtain ⟨document?, reads, known⟩ := reads id
    rw [told, Except.ok.injEq, isDocument] at reads
    exact known document reads.symm
  refine ⟨⟨?_, by rw [isShelf, identified], by rw [areFiles, lists], told, ?_⟩, isShelf⟩
  · rw [isShelf]
    exact whole.attempt_exists? store vacant shows named
  · refine ⟨by rwa [areFiles], fun file member => ?_, fun file member => ?_,
      fun id document isDocument => ?_, fun id document isDocument => (known isDocument).2⟩
    · rw [areFiles, listed] at member
      obtain ⟨seen, entry, _, found⟩ := member
      exact (whole.exists_key seen found).2
    · rw [areFiles, listed] at member
      obtain ⟨_, _, isThere, _⟩ := member
      rwa [isShelf]
    · obtain ⟨⟨isThere, entry, found⟩, _⟩ := known isDocument
      rw [areFiles, listed]
      exact ⟨(Files.stored_keyName id).seen, entry, isThere, found⟩

end Whole

end DocStore
