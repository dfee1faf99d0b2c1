import DocStore.Proofs.Files.Creating
import DocStore.Proofs.Files.Locks
import DocStore.Proofs.Files.Removal
/-!
# Healthy storages

The directory of a collection is furnished as a storage lays it out (`Furnished`) when it has the
two directories for documents and for constraints, which hold files under the names that a storage
uses, and nothing else.  A storage is healthy (`Healthy`) when whatever lies below its root, the
locks apart, belongs to furnished collections, and every file holds what its name says; who wrote
the texts of the files, and in which layout, does not matter.

In a furnished collection no call fails, so creating a file, replacing one and removing one come to
an end, and tell whether one was there.  Reading succeeds because no file is damaged: what is found
is what is stored (`Stores`), by identifier (`Healthy.get`) and by query (`Healthy.scan`).
-/

set_option autoImplicit false

namespace DocStore.FileStore

open Disk (Branch Entry Path Place Plain Shows Under Vacant)
open Files (Named Stored isHidden keyName)
open Host (Action Machine Secures Site anyMoves)

/-! ## What is under the root -/

/-- The directory of a collection as a storage lays it out. -/
structure Furnished (branch : Branch) (name : String) : Prop where
  directory : ∃ identity, branch [name] = some (.directory identity)
  parts : ∀ part, isPart part → ∃ identity, branch [name, part] = some (.directory identity)
  nothingElse : ∀ part rest, ¬ isPart part → branch (name :: part :: rest) = none
  files : ∀ part file entry, branch [name, part, file] = some entry →
    Stored file ∧ ∃ identity content, entry = .file identity content
  flat : ∀ part file rest, rest ≠ [] → branch (name :: part :: file :: rest) = none

/-- What lies below a root, the locks apart, are furnished collections whose files hold what their
names say. -/
structure Healthy (branch : Branch) : Prop where
  collections : ∀ name rest entry, name ≠ lockDirectory → branch (name :: rest) = some entry →
    Named name ∧ Furnished branch name
  documents : ∀ name file identity content, name ≠ lockDirectory →
    branch [name, "docs", file] = some (.file identity content) →
    ∃ document id, documentForm.in? content = some document ∧ documentId? document = some id
      ∧ file = keyName id
  checks : ∀ name file identity content, name ≠ lockDirectory →
    branch [name, "constraints", file] = some (.file identity content) →
    ∃ stored, checkForm.in? content = some stored ∧ file = keyName stored.name

theorem healthy_nothing : Healthy fun _ => none where
  collections _ _ _ _ found := nomatch found
  documents _ _ _ _ _ found := nomatch found
  checks _ _ _ _ _ found := nomatch found

/-- A document is stored in a collection. -/
def Stores (branch : Branch) (name : String) (document : Json) : Prop :=
  ∃ file identity content, branch [name, "docs", file] = some (.file identity content)
    ∧ documentForm.in? content = some document

/-- The identifiers of the documents that are stored in a collection. -/
def idsOf (branch : Branch) (name : String) : Set String :=
  { id | ∃ document, Stores branch name document ∧ documentId? document = some id }

/-- Two branches differ at most under a name. -/
def DifferUnder (name : String) (view view' : Branch) : Prop :=
  ∀ names, ¬ Under {name} names → view' names = view names

section

variable {name : String} {view view' view'' : Branch}

theorem DifferUnder.refl (name : String) (view : Branch) : DifferUnder name view view :=
  fun _ _ => rfl

theorem DifferUnder.trans (first : DifferUnder name view view')
    (second : DifferUnder name view' view'') : DifferUnder name view view'' :=
  fun names notUnder => (second names notUnder).trans (first names notUnder)

theorem DifferUnder.cons (differ : DifferUnder name view view') {other : String}
    (elsewhere : other ≠ name) (rest : List String) : view' (other :: rest) = view (other :: rest) :=
  differ (other :: rest) elsewhere

theorem DifferUnder.locks (differ : DifferUnder name view view') (noLock : name ≠ lockDirectory) :
    locksOf view' = locksOf view := by
  funext names
  exact differ.cons noLock.symm names

theorem differUnder_update (view : Branch) (rest : List String) (found : Option Entry) :
    DifferUnder name view (Function.update view (name :: rest) found) := by
  intro names notUnder
  refine Function.update_of_ne ?_ ..
  rintro rfl
  exact notUnder rfl

theorem Furnished.congr (furnished : Furnished view name)
    (same : ∀ rest, view' (name :: rest) = view (name :: rest)) : Furnished view' name where
  directory := by
    rw [same []]
    exact furnished.directory
  parts part := by
    rw [same [part]]
    exact furnished.parts part
  nothingElse part rest := by
    rw [same (part :: rest)]
    exact furnished.nothingElse part rest
  files part file entry := by
    rw [same [part, file]]
    exact furnished.files part file entry
  flat part file rest := by
    rw [same (part :: file :: rest)]
    exact furnished.flat part file rest

/-- What there is about locks has no part in the health of a storage. -/
theorem Healthy.alike (healthy : Healthy view) (alike : Alike view view') : Healthy view' where
  collections name rest entry noLock found := by
    rw [alike.cons noLock rest] at found
    obtain ⟨named, furnished⟩ := healthy.collections name rest entry noLock found
    exact ⟨named, furnished.congr (alike.cons noLock)⟩
  documents name file identity content noLock found := by
    rw [alike.cons noLock _] at found
    exact healthy.documents name file identity content noLock found
  checks name file identity content noLock found := by
    rw [alike.cons noLock _] at found
    exact healthy.checks name file identity content noLock found

end

/-! ## Furnished collections -/

namespace Furnished

variable {view : Branch} {name : String} (furnished : Furnished view name)
include furnished

theorem hasCollection_eq : hasCollection view name = true := by
  obtain ⟨identity, isDirectory⟩ := furnished.directory
  obtain ⟨identity', isPart⟩ := furnished.parts "docs" (.inl rfl)
  simp [hasCollection, isDirectory, isPart, Entry.isDirectory]

theorem leads_part {part : String} (isPart : isPart part) : view.Leads ([name] ++ [part]) := by
  obtain ⟨identity, isDirectory⟩ := furnished.directory
  obtain ⟨identity', isDirectory'⟩ := furnished.parts part isPart
  exact ((Branch.leads_nil view).concat isDirectory).concat isDirectory'

/-- The place of a file of a collection. -/
theorem site (named : Named name) {part : String} (isPart : isPart part) {file : String}
    (stored : Stored file) : Site view [name, part] file where
  leads := furnished.leads_part isPart
  deep := rfl
  plain := named.plain_names isPart stored.plain
  bare rest nonempty := furnished.flat part file rest nonempty
  plainBeside := stored.plain_temporary
  free number := by
    by_contra isThere
    obtain ⟨entry, found⟩ := Option.ne_none_iff_exists'.mp isThere
    have seen := (furnished.files part _ entry found).1.seen
    rw [Files.isHidden_temporaryName] at seen
    cases seen
  bareBeside number rest nonempty := furnished.flat part _ rest nonempty

/-- The files of a directory can be gone through. -/
theorem exists_shelf {origin disk : Disk} {home : Place} (shows : Shows origin home view disk)
    {part : String} (isPart : isPart part) : ∃ files, Shelf view ([name] ++ [part]) files :=
  exists_shelf_of_shows shows (furnished.leads_part isPart) fun file entry found _ =>
    ⟨(furnished.files part file entry found).1.plain,
      fun rest nonempty => furnished.flat part file rest nonempty⟩

/-- A collection stays furnished when a file comes or goes. -/
theorem update {part : String} (isPart' : isPart part) {file : String} (stored : Stored file)
    {found : Option Entry}
    (isFile : ∀ entry, found = some entry → ∃ identity content, entry = .file identity content) :
    Furnished (Function.update view [name, part, file] found) name where
  directory := by
    rw [Function.update_of_ne (by simp)]
    exact furnished.directory
  parts other := by
    rw [Function.update_of_ne (by simp)]
    exact furnished.parts other
  nothingElse other rest notPart := by
    rw [Function.update_of_ne]
    · exact furnished.nothingElse other rest notPart
    · intro same
      obtain rfl := (List.cons.inj (List.cons.inj same).2).1
      exact notPart isPart'
  files other file' entry there := by
    rw [Function.update_apply] at there
    split at there
    next same =>
      obtain ⟨-, rfl⟩ : other = part ∧ file' = file := by simpa using same
      exact ⟨stored, isFile entry there⟩
    next => exact furnished.files other file' entry there
  flat other file' rest nonempty := by
    rw [Function.update_of_ne]
    · exact furnished.flat other file' rest nonempty
    · intro same
      have rests := (List.cons.inj (List.cons.inj (List.cons.inj same).2).2).2
      exact nonempty rests

end Furnished

/-- A collection that has just been created is furnished. -/
theorem furnished_created (view : Branch) (name : String) (identities : Nat × Nat × Nat) :
    Furnished (created view name identities) name where
  directory := ⟨identities.1, by simp [created, staged]⟩
  parts part isPart := by
    rcases isPart with rfl | rfl
    · exact ⟨identities.2.1, by simp [created, staged]⟩
    · exact ⟨identities.2.2, by simp [created, staged]⟩
  nothingElse part rest notPart := by
    have noDocuments : part ≠ "docs" := fun same => notPart (.inl same)
    have noChecks : part ≠ "constraints" := fun same => notPart (.inr same)
    simp [created, staged, noDocuments, noChecks, Branch.without_singleton]
  files part file entry found := by simp [created, staged, Branch.without_singleton] at found
  flat part file rest _ := by simp [created, staged, Branch.without_singleton]

/-- There are no files in a collection. -/
def Unfilled (view : Branch) (name : String) : Prop := ∀ part file, view [name, part, file] = none

theorem unfilled_created (view : Branch) (name : String) (identities : Nat × Nat × Nat) :
    Unfilled (created view name identities) name := fun part file => by
  simp [created, staged, Branch.without_singleton]

/-! ## Healthy storages -/

theorem notDamaged_of_in? {α : Type} {form : Form α} {content : String} {value : α}
    (isIn : form.in? content = some value) : form.isDamaged content = false := by
  rw [Form.isDamaged, isIn, Option.isNone_some, Bool.false_and]

namespace Healthy

variable {view : Branch} (healthy : Healthy view)
include healthy

/-- Nothing is hidden but the locks. -/
theorem nothing_hidden {name : String} (hidden : isHidden name = true) (noLock : name ≠ lockDirectory)
    (rest : List String) : view (name :: rest) = none := by
  by_contra isThere
  obtain ⟨entry, found⟩ := Option.ne_none_iff_exists'.mp isThere
  have seen := (healthy.collections name rest entry noLock found).1.seen
  rw [hidden] at seen
  cases seen

theorem no_staging (number : Nat) (rest : List String) :
    view ((".staging-" ++ Machine.freshName number) :: rest) = none :=
  healthy.nothing_hidden (Files.mark_staging.isHidden number) (Files.marked_ne number (by decide))
    rest

theorem no_trash (number : Nat) (rest : List String) :
    view ((".trash-" ++ Machine.freshName number) :: rest) = none :=
  healthy.nothing_hidden (Files.mark_trash.isHidden number) (Files.marked_ne number (by decide)) rest

/-- Under a name there is a furnished collection or nothing. -/
theorem furnished_or {name : String} (noLock : name ≠ lockDirectory) :
    Furnished view name ∨ ∀ rest, view (name :: rest) = none := by
  by_cases isThere : ∃ rest, view (name :: rest) ≠ none
  · obtain ⟨rest, isThere⟩ := isThere
    obtain ⟨entry, found⟩ := Option.ne_none_iff_exists'.mp isThere
    exact .inl (healthy.collections name rest entry noLock found).2
  · exact .inr fun rest => by_contra fun isThere' => isThere ⟨rest, isThere'⟩

theorem no_link {name : String} (noLock : name ≠ lockDirectory) (target : String) :
    view [name] ≠ some (.link target) := by
  intro isLink
  obtain ⟨identity, isDirectory⟩ := (healthy.collections name [] _ noLock isLink).2.directory
  rw [isLink] at isDirectory
  cases isDirectory

theorem no_link_documents {name : String} (noLock : name ≠ lockDirectory) (target : String) :
    view [name, "docs"] ≠ some (.link target) := by
  intro isLink
  have furnished := (healthy.collections name ["docs"] _ noLock isLink).2
  obtain ⟨identity, isDirectory⟩ := furnished.parts "docs" (.inl rfl)
  rw [isLink] at isDirectory
  cases isDirectory

/-- Without a collection nothing is stored. -/
theorem missing {name : String} (noLock : name ≠ lockDirectory)
    (missing : hasCollection view name = false) (rest : List String) :
    view (name :: rest) = none := by
  refine (healthy.furnished_or noLock).resolve_left (fun furnished => ?_) rest
  rw [furnished.hasCollection_eq] at missing
  cases missing

theorem furnished {name : String} (noLock : name ≠ lockDirectory)
    (exist : hasCollection view name = true) : Furnished view name := by
  refine (healthy.furnished_or noLock).resolve_right fun missing => ?_
  simp [hasCollection, missing] at exist

theorem hasCollection_eq {name : String} (noLock : name ≠ lockDirectory) :
    hasCollection view name = (view [name]).isSome := by
  cases exist : hasCollection view name with
  | false => rw [healthy.missing noLock exist, Option.isSome_none]
  | true =>
      obtain ⟨identity, isDirectory⟩ := (healthy.furnished noLock exist).directory
      rw [isDirectory, Option.isSome_some]

/-- No file among those of the documents is damaged. -/
theorem no_damaged {name : String} (noLock : name ≠ lockDirectory)
    {files : List (String × String)} (filed : Filed view ([name] ++ ["docs"]) files) :
    (files.find? fun file => documentForm.isDamaged file.2) = none := by
  refine List.find?_eq_none.mpr fun file member => ?_
  obtain ⟨identity, isFile⟩ := filed.there file member
  obtain ⟨document, _, isIn, _⟩ := healthy.documents name file.1 identity file.2 noLock isFile
  rw [notDamaged_of_in? isIn]
  exact Bool.false_ne_true

/-- A document of an identifier can only be in the file that the identifier names. -/
theorem file_of_stores {name id : String} (noLock : name ≠ lockDirectory) {document : Json}
    (stores : Stores view name document) (isId : documentId? document = some id) :
    ∃ identity content, view [name, "docs", keyName id] = some (.file identity content)
      ∧ documentForm.in? content = some document := by
  obtain ⟨file, identity, content, isFile, isIn⟩ := stores
  obtain ⟨document', id', isIn', isId', rfl⟩ :=
    healthy.documents name file identity content noLock isFile
  obtain rfl : document = document' := Option.some.inj (isIn.symm.trans isIn')
  obtain rfl : id = id' := Option.some.inj (isId.symm.trans isId')
  exact ⟨identity, content, isFile, isIn⟩

/-- There is a file of an identifier exactly when a document of it is stored, as long as no other
identifier has the same key. -/
theorem no_file_iff {name id : String} (noLock : name ≠ lockDirectory)
    (apart : Set.InjOn keyName (insert id (idsOf view name))) :
    view [name, "docs", keyName id] = none ↔ id ∉ idsOf view name := by
  constructor
  · rintro noFile ⟨document, stores, isId⟩
    obtain ⟨identity, content, isFile, _⟩ := healthy.file_of_stores noLock stores isId
    rw [noFile] at isFile
    cases isFile
  · intro isNew
    by_contra isThere
    obtain ⟨entry, found⟩ := Option.ne_none_iff_exists'.mp isThere
    have furnished := (healthy.collections name _ entry noLock found).2
    obtain ⟨-, identity, content, rfl⟩ := furnished.files _ _ entry found
    obtain ⟨document, other, isIn, isId, sameKey⟩ :=
      healthy.documents name _ identity content noLock found
    have isStored : other ∈ idsOf view name := ⟨document, ⟨_, identity, content, found, isIn⟩, isId⟩
    obtain rfl : id = other := apart (Set.mem_insert ..) (Set.mem_insert_of_mem _ isStored) sameKey
    exact isNew isStored

/-- Next to what is healthy there may be a new collection without files. -/
theorem addUnfilled {view' : Branch} {name : String} (differ : DifferUnder name view view')
    (named : Named name) (furnished : Furnished view' name) (unfilled : Unfilled view' name) :
    Healthy view' where
  collections other rest entry noLock found := by
    by_cases same : other = name
    · subst same
      exact ⟨named, furnished⟩
    · rw [differ.cons same] at found
      obtain ⟨isNamed, there⟩ := healthy.collections other rest entry noLock found
      exact ⟨isNamed, there.congr (differ.cons same)⟩
  documents other file identity content noLock found := by
    by_cases same : other = name
    · subst same
      rw [unfilled] at found
      cases found
    · rw [differ.cons same] at found
      exact healthy.documents other file identity content noLock found
  checks other file identity content noLock found := by
    by_cases same : other = name
    · subst same
      rw [unfilled] at found
      cases found
    · rw [differ.cons same] at found
      exact healthy.checks other file identity content noLock found

end Healthy

theorem mem_filterMap_in?_iff {view : Branch} {name : String} {files : List (String × String)}
    (shelf : Shelf view ([name] ++ ["docs"]) files) (furnished : Furnished view name)
    {document : Json} :
    document ∈ files.filterMap (fun file => documentForm.in? file.2) ↔ Stores view name document := by
  rw [List.mem_filterMap]
  constructor
  · rintro ⟨file, member, isIn⟩
    obtain ⟨identity, isFile⟩ := shelf.there file member
    exact ⟨file.1, identity, file.2, isFile, isIn⟩
  · rintro ⟨file, identity, content, isFile, isIn⟩
    have stored := (furnished.files "docs" file _ isFile).1
    obtain ⟨filed, member, rfl⟩ := List.mem_map.mp ((shelf.all file).mpr
      ⟨⟨stored.seen, stored.ends⟩, _, isFile, rfl⟩)
    obtain ⟨identity', isFile'⟩ := shelf.there filed member
    have same := isFile.symm.trans isFile'
    cases same
    exact ⟨filed, member, isIn⟩

/-! ## Operations -/

section

variable {store : FileStore} {origin : Disk} {home : Place} {heads : Set String} {view : Branch}
  (vacant : Vacant origin store.root home) {name : String} (own : name ∈ heads)
  (named : Named name)
include vacant own named

/-! ### In a furnished collection -/

section

variable (furnished : Furnished view name)
include furnished

theorem Furnished.exists? :
    Secures anyMoves origin home heads view (store.exists? name) (.ok true) (Eq view) := by
  obtain ⟨identity, isDirectory⟩ := furnished.directory
  obtain ⟨identity', isDirectory'⟩ := furnished.parts "docs" (.inl rfl)
  have looks : Secures anyMoves origin home heads view (store.exists? name) _ (Eq view) :=
    exists?_directory vacant own named isDirectory fun target isLink => by
      rw [isDirectory'] at isLink
      cases isLink
  rwa [isDirectory', Option.any_some] at looks

variable {part : String} (isPart : isPart part) {file : String} (stored : Stored file)
include isPart stored

/-- Creating a file comes to an end; none is created only where one is. -/
theorem Furnished.createFile (content : String) :
    ∃ made, Secures anyMoves origin home heads view
      (store.createFile name (store.root.trimmed ++ ([name, part] ++ [file])) (.ok content))
      (.ok made) fun view' => DifferUnder name view view' ∧ Furnished view' name
        ∧ (made = false → view' = view ∧ ¬ Unfilled view name) := by
  have site := furnished.site named isPart stored
  have exist : Secures anyMoves origin home heads view (store.exists? name) (.ok true) (Eq view) :=
    furnished.exists? vacant own named
  have beside : Host.Beside anyMoves [name, part] file := fun _ _ _ _ => trivial
  cases found : view ([name, part] ++ [file]) with
  | some entry =>
      refine ⟨false, (site_createFile_taken vacant own exist site beside found).mono
        fun view' same => ?_⟩
      subst same
      refine ⟨.refl name view, furnished, fun _ => ⟨rfl, fun unfilled => ?_⟩⟩
      exact absurd ((unfilled part file).symm.trans found) (by simp)
  | none =>
      refine ⟨true, (site_createFile_free vacant own exist site beside found
        fun _ _ _ _ _ => trivial).mono fun view' written => ?_⟩
      obtain ⟨identity, rfl⟩ := written
      refine ⟨differUnder_update view [part, file] _, furnished.update isPart stored ?_, nofun⟩
      rintro entry ⟨⟩
      exact ⟨identity, content, rfl⟩

/-- Replacing a file comes to an end. -/
theorem Furnished.replaceText (content : String) :
    ∃ told, Secures anyMoves origin home heads view
      (FileStore.replaceText (store.root.trimmed ++ ([name, part] ++ [file])) (.ok content))
      (.ok told) (DifferUnder name view) := by
  have site := furnished.site named isPart stored
  have leads := furnished.leads_part isPart
  cases found : view ([name, part] ++ [file]) with
  | none =>
      have reads : Secures anyMoves origin home heads view (Files.readDocument _) (.ok none) _ :=
        .readDocument_absent vacant ⟨[name, part], file, [], rfl, leads, found⟩ own site.plain
          (show 3 ≤ 3 by decide)
      exact ⟨false, .bind_same reads (.pure false (.refl name view))⟩
  | some entry =>
      obtain ⟨-, identity, old, rfl⟩ := furnished.files part file entry found
      have reads : Secures anyMoves origin home heads view (Files.readDocument _) (.ok (some old)) _ :=
        .readDocument_file vacant leads own site.plain (show 2 < 3 by decide) found
      refine ⟨true, .bind_same reads (.ofExcept_bind (.bind (site.atomicWrite vacant own
        (fun _ _ _ _ => trivial) found fun _ _ _ _ _ => trivial) fun view' written =>
          .pure true ?_))⟩
      obtain ⟨identity', rfl⟩ := written
      exact differUnder_update view [part, file] _

end

/-- A file is removed if it is there, whether or not there is a collection. -/
theorem removes_file (roomy : Furnished view name ∨ ∀ rest, view (name :: rest) = none)
    {part : String} (isPart : isPart part) {file : String} (stored : Stored file) :
    Secures anyMoves origin home heads view
      (Files.removeDocument (store.root.trimmed ++ ([name, part] ++ [file])))
      (.ok (view [name, part, file]).isSome)
      (Eq (Function.update view [name, part, file] none)) := by
  have plain := named.plain_names isPart stored.plain
  cases found : view [name, part, file] with
  | none =>
      have absent : view.Absent ([name, part] ++ [file]) := by
        rcases roomy with furnished | missing
        · exact ⟨[name, part], file, [], rfl, furnished.leads_part isPart, found⟩
        · exact ⟨[], name, [part, file], rfl, Branch.leads_nil view, missing []⟩
      rw [Option.isSome_none, ← found, Function.update_eq_self]
      exact .removeDocument_absent vacant absent own plain (show 3 ≤ 3 by decide)
  | some entry =>
      have furnished : Furnished view name := roomy.resolve_right fun missing => by
        rw [missing] at found
        cases found
      obtain ⟨-, identity, content, rfl⟩ := furnished.files part file entry found
      exact .removeDocument_file vacant (furnished.leads_part isPart) own plain
        (show 2 < 3 by decide) found (fun rest nonempty => furnished.flat part file rest nonempty)
        fun _ => trivial

/-! ### In a healthy storage -/

section

variable (healthy : Healthy view)
include healthy

theorem Healthy.exists? :
    Secures anyMoves origin home heads view (store.exists? name)
      (.ok (hasCollection view name)) (Eq view) :=
  exists?_view vacant own named (healthy.no_link named.ne_lockDirectory)
    (healthy.no_link_documents named.ne_lockDirectory)

/-- After a creation the collection is there, either as before or new and without files. -/
theorem Healthy.create :
    ∃ told, Secures anyMoves origin home heads view (store.create name) (.ok told) fun view' =>
      DifferUnder name view view' ∧ Furnished view' name ∧ (view' = view ∨ Unfilled view' name) := by
  rcases healthy.furnished_or named.ne_lockDirectory with furnished | missing
  · exact ⟨false, .bind_same (furnished.exists? vacant own named)
      (.pure false ⟨.refl name view, furnished, .inl rfl⟩)⟩
  · refine ⟨true, (create_clear vacant own named (healthy.no_link named.ne_lockDirectory)
      (healthy.no_link_documents named.ne_lockDirectory) healthy.no_staging
      (.inl (missing []))).mono fun view' creates => ⟨fun names => creates.elsewhere, ?_⟩⟩
    cases creates with
    | new _ identities =>
        exact ⟨furnished_created view name identities, .inr (unfilled_created view name identities)⟩

theorem Healthy.drop :
    Secures anyMoves origin home heads view (store.drop name) (.ok (hasCollection view name))
      fun view' => DifferUnder name view view' ∧ (hasCollection view name = false → view' = view) := by
  rw [healthy.hasCollection_eq named.ne_lockDirectory]
  refine (drop_view vacant own named healthy.no_trash).mono fun view' same => ?_
  subst same
  refine ⟨fun names notUnder => ?_, fun missing => by rw [missing, if_neg Bool.false_ne_true]⟩
  split
  · cases names with
    | nil => rw [Branch.without_singleton_nil]
    | cons other rest =>
        rw [Branch.without_singleton, if_neg]
        exact fun same => notUnder same
  · rfl

/-- **The document of an identifier is found** if one is stored. -/
theorem Healthy.get (id : String) :
    ∃ found, Secures anyMoves origin home heads view (getFrom (store.documentPath name id) id)
      (.ok found) (Eq view)
      ∧ (found = none ↔ id ∉ idsOf view name) := by
  have noLock := named.ne_lockDirectory
  have plain := named.plain_names (.inl rfl) (Files.stored_keyName id).plain
  have path : store.documentPath name id = store.root.trimmed ++ ([name, "docs"] ++ [keyName id]) :=
    filePath_eq vacant.resolved named (.inl rfl) (keyName id)
  cases found : view [name, "docs", keyName id] with
  | none =>
      have absent : view.Absent ([name, "docs"] ++ [keyName id]) := by
        rcases healthy.furnished_or noLock with furnished | missing
        · exact ⟨[name, "docs"], keyName id, [], rfl, furnished.leads_part (.inl rfl), found⟩
        · exact ⟨[], name, ["docs", keyName id], rfl, Branch.leads_nil view, missing []⟩
      have reads : Secures anyMoves origin home heads view (Files.readDocument _) (.ok none) _ :=
        .readDocument_absent vacant absent own plain (show 3 ≤ 3 by decide)
      refine ⟨none, ?_, iff_of_true rfl fun ⟨document, stores, isId⟩ => ?_⟩
      · rw [path]
        exact .bind_same (.bind_same (.bind_same reads (.pure none rfl)) (.pure none rfl))
          (.pure _ rfl)
      · obtain ⟨identity, content, isFile, _⟩ := healthy.file_of_stores noLock stores isId
        rw [found] at isFile
        cases isFile
  | some entry =>
      have furnished := (healthy.collections name _ entry noLock found).2
      obtain ⟨-, identity, content, rfl⟩ := furnished.files _ _ entry found
      obtain ⟨document, id', isIn, isId, _⟩ := healthy.documents name _ identity content noLock found
      have reads : Secures anyMoves origin home heads view
          (getFrom (store.documentPath name id) id) _ (Eq view) :=
        getFrom_content vacant own named (furnished.leads_part (.inl rfl)) found
      rw [Form.tells, notDamaged_of_in? isIn, if_neg Bool.false_ne_true, isIn] at reads
      refine ⟨_, reads, ?_⟩
      rw [Option.filter_eq_none_iff]
      constructor
      · rintro differs ⟨other, stores, isOther⟩
        obtain ⟨_, content', isFile, isIn'⟩ := healthy.file_of_stores noLock stores isOther
        have same := found.symm.trans isFile
        cases same
        obtain rfl : document = other := Option.some.inj (isIn.symm.trans isIn')
        exact differs document rfl (by simp [isOther])
      · rintro isNew other ⟨⟩ same
        exact isNew ⟨document, ⟨_, identity, content, found, isIn⟩, by simpa using same⟩

variable {disk : Disk} (shows : Shows origin home view disk)
include shows

/-- **A scan finds what is stored** and wanted. -/
theorem Healthy.scan (furnished : Furnished view name) (wanted : Json → Bool) :
    ∃ documents, Secures anyMoves origin home heads view (store.scan name wanted) (.ok documents)
        (Eq view)
      ∧ ∀ document, document ∈ documents ↔ Stores view name document ∧ wanted document = true := by
  obtain ⟨files, shelf⟩ := furnished.exists_shelf shows (.inl rfl)
  have sound := healthy.no_damaged named.ne_lockDirectory shelf.toFiled
  have scans : Secures anyMoves origin home heads view (store.scan name wanted) _ (Eq view) :=
    scan_shelf vacant own named shelf wanted
  rw [Form.tellAll, sound] at scans
  refine ⟨_, scans, fun document => ?_⟩
  rw [List.mem_filter, mem_filterMap_in?_iff shelf furnished]

/-- Removing the documents that are wanted comes to an end. -/
theorem Healthy.deleteMatching (furnished : Furnished view name) (wanted : Json → Bool)
    {limit : Storage.Limit} (comparable : limit ≠ .incomparable) :
    ∃ removed, Secures anyMoves origin home heads view (store.deleteMatching name wanted limit)
      (.ok removed) (DifferUnder name view) := by
  obtain ⟨files, shelf⟩ := furnished.exists_shelf shows (.inl rfl)
  have sound := healthy.no_damaged named.ne_lockDirectory shelf.toFiled
  have removes : Secures anyMoves origin home heads view (store.deleteMatching name wanted limit) _
      _ := deleteMatching_shelf vacant own named shelf (fun _ _ _ => trivial) wanted comparable
  rw [removal, sound] at removes
  refine ⟨_, removes.mono fun view' same names notUnder => ?_⟩
  subst same
  refine if_neg fun isGone => ?_
  obtain ⟨file, _, rfl⟩ := List.mem_map.mp isGone
  exact notUnder rfl

omit healthy in
/-- In a collection without files there are no constraints. -/
theorem Furnished.checks_unfilled (furnished : Furnished view name) (unfilled : Unfilled view name) :
    Secures anyMoves origin home heads view (store.checks name) (.ok []) (Eq view) := by
  obtain ⟨files, shelf⟩ := furnished.exists_shelf shows (.inr rfl)
  have noFiles : files = [] := by
    refine List.eq_nil_iff_forall_not_mem.mpr fun file member => ?_
    obtain ⟨identity, isFile⟩ := shelf.there file member
    exact absurd ((unfilled "constraints" file.1).symm.trans isFile) (by simp)
  subst noFiles
  exact checks_shelf vacant own named shelf

end

end

end DocStore.FileStore
