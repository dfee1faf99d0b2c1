import DocStore.Proofs.Files.Kept
/-!
# Operations on documents and constraints

What the operations of a storage in files on single documents and constraints come to, told by the
cabinet that lies below the root: they answer and leave behind what `Cabinet.perform` says, as far
as they own the collection.  The files are read back as `Json.parse?_canonicalText` says, whatever
their layouts, so a document is found settled (`readDocumentFile_kept`) and a constraint as it was
(`storedCheck?_settled`).
-/

set_option autoImplicit false

namespace DocStore.FileStore

open Disk (Branch Entry Path Place Plain Under Vacant)
open Files (Named Stored keyName storedEnding)
open Host (Action Beside Secures Settles Site)

/-! ## Paths -/

section

variable {store : FileStore} (resolved : Path.Resolved store.root) {name : String}
  (named : Named name)
include resolved named

theorem collectionPath_eq : store.collectionPath name = store.root.trimmed ++ [name] :=
  Path.append_eq resolved named.plain

theorem partPath_eq (part : String) :
    (store.collectionPath name).child part = store.root.trimmed ++ ([name] ++ [part]) := by
  rw [collectionPath_eq resolved named, Path.child_concat _ named.plain.nonempty]
  rfl

theorem filePath_eq {part : String} (isPart : isPart part) (file : String) :
    ((store.collectionPath name).child part).child file
      = store.root.trimmed ++ ([name, part] ++ [file]) := by
  rw [partPath_eq resolved named, ← List.append_assoc,
    Path.child_concat _ isPart.stored.nonempty, List.append_assoc]
  rfl

end

/-! ## Reading back -/

theorem wellFormed_constraint (constraint : Constraint) : constraint.toJson.WellFormed := by
  obtain ⟨field, rule⟩ := constraint
  cases rule <;> simp [Constraint.toJson, Scalar.IsFinite]

theorem wellFormed_storedCheck (stored : StoredCheck .json) : stored.toJson.WellFormed := by
  have inside := wellFormed_constraint stored.check
  simp [StoredCheck.toJson, Scalar.IsFinite, inside]

theorem ofJson?_settled (order : Json.KeyOrder) {value : Json} (wellFormed : value.WellFormed) :
    Constraint.ofJson? (Json.settled order value) = Constraint.ofJson? value := by
  have part (key : String) :
      ((Json.settled order value).field? key).bind Json.string?
        = (value.field? key).bind Json.string? := by
    rw [Json.field?_settled order wellFormed]
    cases value.field? key with
    | none => rfl
    | some inner => exact Json.string?_settled order inner
  simp only [Constraint.ofJson?, part]

/-- A stored constraint is read back as it was. -/
theorem storedCheck?_settled (order : Json.KeyOrder) (stored : StoredCheck .json) :
    storedCheck? (Json.settled order stored.toJson) = some stored := by
  have wellFormed := wellFormed_storedCheck stored
  have constraint : stored.toJson.field? "constraint" = some (Constraint.toJson stored.check) := rfl
  have name : stored.toJson.field? "name" = some (Json.string stored.name) := rfl
  simp only [storedCheck?, Json.field?_settled order wellFormed, constraint, name, Option.map_some,
    Option.bind_some, Option.bind_eq_bind, Json.string?_settled,
    ofJson?_settled order (wellFormed_constraint _), Constraint.ofJson?_toJson]
  rfl

section

variable {store : FileStore} {origin : Disk} {home : Place} {heads : Set String}
  {layouts : Set Json.Layout} {cabinet : Cabinet} {locked view : Branch}
  (vacant : Vacant origin store.root home)

theorem readJson_absent {moves : Nat → Branch → Branch → Prop} {path : Path}
    (read : Secures moves origin home heads view (Files.readDocument path) (.ok none) (Eq view)) :
    Secures moves origin home heads view (readJson path) (.ok none) (Eq view) :=
  read.bind_same (.pure none rfl)

theorem readJson_text {moves : Nat → Branch → Branch → Prop} {path : Path} {content : String}
    {value : Json}
    (read : Secures moves origin home heads view (Files.readDocument path) (.ok (some content))
      (Eq view))
    (parsed : Json.parse? content = some value) :
    Secures moves origin home heads view (readJson path) (.ok (some value)) (Eq view) :=
  read.bind_same (by
    simp only [parsed]
    exact .pure (some value) rfl)

/-- The text of a document is read settled. -/
theorem readDocumentFile_text {path : Path} {layout : Json.Layout} (blank : layout.Blank)
    {document : Json} (wellFormed : document.WellFormed) {id : String}
    (isId : documentId? document = some id)
    (read : Secures (Advances layouts) origin home heads view (Files.readDocument path)
      (.ok (some (Json.canonicalText layout .document document))) (Eq view)) :
    Secures (Advances layouts) origin home heads view (readDocumentFile path)
      (.ok (some (Json.settled .document document))) (Eq view) := by
  refine .bind_same (readJson_text read (Json.parse?_canonicalText blank wellFormed .document)) ?_
  have settledId := (documentId?_settled wellFormed).trans isId
  obtain ⟨fields, isObject⟩ := exists_fields_of_documentId? settledId
  have isSome : (documentId? (.object fields)).isSome = true := by
    rw [← isObject, settledId, Option.isSome_some]
  rw [isObject]
  rw [Json.settled] at isObject
  rw [isObject]
  simp only [isSome, if_true]
  exact .pure _ rfl

variable (keeps : Keeps layouts cabinet locked view)
include keeps

/-- Where a collection has no file of a name there is nothing to be read. -/
theorem absent_file {name : String} (named : Named name) {part : String} (isPart : isPart part)
    {file : String}
    (missing : ∀ drawer, cabinet.drawer? name = some drawer →
      ∀ layout, drawer.node? layout [part, file] = none) :
    view.Absent ([name, part] ++ [file]) := by
  cases there : cabinet.drawer? name with
  | none => exact keeps.absent named.ne_lockDirectory there [part, file]
  | some drawer =>
      refine ⟨[name, part], file, [], rfl, keeps.leads_part there isPart, ?_⟩
      exact keeps.nothing named.ne_lockDirectory fun layout =>
        (Keeps.node?_eq there layout [part, file]).trans (missing drawer there layout)

theorem file_of_node {name : String} {drawer : Drawer} (there : cabinet.drawer? name = some drawer)
    {part file : String} {text : Json.Layout → String}
    (isFile : ∀ layout, drawer.node? layout [part, file] = some (.file (text layout))) :
    ∃ layout ∈ layouts, ∃ identity,
      view ([name, part] ++ [file]) = some (.file identity (text layout)) :=
  keeps.file (keeps.named there).ne_lockDirectory fun layout =>
    (Keeps.node?_eq there layout [part, file]).trans (isFile layout)

include vacant

theorem readDocument_missing {name : String} (own : name ∈ heads) (named : Named name)
    {part : String} (isPart : isPart part) {file : String} (plain : Plain file)
    (missing : ∀ drawer, cabinet.drawer? name = some drawer →
      ∀ layout, drawer.node? layout [part, file] = none) :
    Secures (Advances layouts) origin home heads view
      (Files.readDocument (store.root.trimmed ++ ([name, part] ++ [file]))) (.ok none) (Eq view) :=
  .readDocument_absent vacant (absent_file keeps named isPart missing) own
    (named.plain_names isPart plain) (show 3 ≤ 3 by decide)

theorem readDocument_there {name : String} (own : name ∈ heads) {drawer : Drawer}
    (there : cabinet.drawer? name = some drawer) {part : String} (isPart : isPart part)
    {file : String} (plain : Plain file) {text : Json.Layout → String}
    (isFile : ∀ layout, drawer.node? layout [part, file] = some (.file (text layout))) :
    ∃ layout ∈ layouts, Secures (Advances layouts) origin home heads view
      (Files.readDocument (store.root.trimmed ++ ([name, part] ++ [file])))
      (.ok (some (text layout))) (Eq view) := by
  obtain ⟨layout, member, identity, found⟩ := file_of_node keeps there isFile
  exact ⟨layout, member, .readDocument_file vacant (keeps.leads_part there isPart) own
    ((keeps.named there).plain_names isPart plain) (show 2 < 3 by decide) found⟩

variable (blank : ∀ layout ∈ layouts, layout.Blank)
include blank

/-- A document is read settled. -/
theorem readDocumentFile_kept {name : String} (own : name ∈ heads) (named : Named name)
    {file : String} (plain : Plain file) :
    Secures (Advances layouts) origin home heads view
      (readDocumentFile (store.root.trimmed ++ ([name, "docs"] ++ [file])))
      (.ok (cabinet.document? name file)) (Eq view) := by
  cases there : cabinet.drawer? name with
  | none =>
      rw [Cabinet.document?, there]
      refine .bind_same (readJson_absent (readDocument_missing vacant keeps own named (.inl rfl)
        plain fun drawer found => ?_)) (.pure none rfl)
      exact absurd (there.symm.trans found) (by simp)
  | some drawer =>
      rw [Cabinet.document?, there, Option.bind_some]
      cases found : drawer.documents.lookup file with
      | none =>
          refine .bind_same (readJson_absent (readDocument_missing vacant keeps own named
            (.inl rfl) plain fun drawer' there' layout => ?_)) (.pure none rfl)
          obtain rfl : drawer = drawer' := Option.some.inj (there.symm.trans there')
          rw [Drawer.node?_document, found, Option.map_none]
      | some document =>
          obtain ⟨wellFormed, id, isId, _⟩ := (keeps.drawerOrderly there).documents _ _ found
          have isFile (layout : Json.Layout) : drawer.node? layout ["docs", file]
              = some (.file (Json.canonicalText layout .document document)) := by
            rw [Drawer.node?_document, found, Option.map_some]
          obtain ⟨layout, member, reads⟩ :=
            readDocument_there vacant keeps own there (.inl rfl) plain isFile
          exact readDocumentFile_text (blank layout member) wellFormed isId reads

end

/-! ## Writing -/

section

variable {moves : Nat → Branch → Branch → Prop} {store : FileStore} {origin : Disk} {home : Place}
  {heads : Set String} {view : Branch} (vacant : Vacant origin store.root home) {name : String}
  (own : name ∈ heads)
  (exist : Secures moves origin home heads view (store.exists? name) (.ok true) (Eq view))
  {part file : String} (site : Site view [name, part] file) (beside : Beside moves [name, part] file)
include vacant own exist site beside

/-- At a place in a collection no file is created where one is. -/
theorem site_createFile_taken {content : String} {entry : Entry}
    (taken : view ([name, part] ++ [file]) = some entry) :
    Secures moves origin home heads view
      (store.createFile name (store.root.trimmed ++ ([name, part] ++ [file])) (.ok content))
      (.ok false) (Eq view) := by
  refine .bind_same (.bind_same exist (.pure () rfl)) (.ofExcept_bind ?_)
  exact .bind_same (site.atomicCreate_taken vacant own beside taken).outcome (.pure false rfl)

/-- At a place in a collection a file is created where none is. -/
theorem site_createFile_free {content : String} (free : view ([name, part] ++ [file]) = none)
    (settles : Settles moves view [name, part] file content) :
    Secures moves origin home heads view
      (store.createFile name (store.root.trimmed ++ ([name, part] ++ [file])) (.ok content))
      (.ok true) fun view' => ∃ identity, view'
        = Function.update view ([name, part] ++ [file]) (some (.file identity content)) := by
  refine .bind_same (.bind_same exist (.pure () rfl)) (.ofExcept_bind ?_)
  exact .bind (site.atomicCreate_free vacant own beside free settles).outcome fun _ held =>
    .pure true held

end

section

variable {store : FileStore} {origin : Disk} {home : Place} {heads : Set String}
  {layouts : Set Json.Layout} {cabinet : Cabinet} {locked view : Branch}
  (vacant : Vacant origin store.root home) (keeps : Keeps layouts cabinet locked view)
  {name : String} (own : name ∈ heads) (named : Named name)
include vacant keeps own named

/-- A collection exists exactly when it has a directory for documents. -/
theorem exists?_kept :
    Secures (Advances layouts) origin home heads view (store.exists? name)
      (.ok (cabinet.drawer? name).isSome) (Eq view) := by
  have resolved := vacant.resolved
  rw [exists?, documentsPath, partPath_eq resolved named]
  have plain : ∀ other ∈ [name] ++ ["docs"], Plain other := by
    intro other member
    simp only [List.cons_append, List.nil_append, List.mem_cons, List.not_mem_nil, or_false]
      at member
    rcases member with rfl | rfl
    · exact named.plain
    · exact isPart.stored (.inl rfl)
  cases there : cabinet.drawer? name with
  | none =>
      exact .isDirectory_absent vacant (keeps.absent named.ne_lockDirectory there ["docs"]) own
        plain (show 2 ≤ 3 by decide)
  | some drawer =>
      obtain ⟨identity, isDirectory⟩ := keeps.part_directory there (.inl rfl)
      exact .isDirectory_directory vacant (keeps.leads_collection there) own plain
        (show 1 < 3 by decide) isDirectory

/-- Without its collection no file is created. -/
theorem createFile_missing (missing : cabinet.drawer? name = none) (path : Path)
    (content : Except Failure String) :
    Secures (Advances layouts) origin home heads view (store.createFile name path content)
      (.error (Cabinet.missing path name)) (Eq view) := by
  have none := exists?_kept vacant keeps own named
  rw [missing] at none
  exact .bind_error (.bind_same none (.fail _ rfl))

variable {drawer : Drawer} (there : cabinet.drawer? name = some drawer) {part : String}
  (isPart : isPart part) {file : String} (stored : Stored file)
include there isPart stored

omit isPart stored in
theorem exists?_there :
    Secures (Advances layouts) origin home heads view (store.exists? name) (.ok true) (Eq view) := by
  have found := exists?_kept vacant keeps own named
  rwa [there] at found

/-- No file is created where one is. -/
theorem createFile_taken {content : String} {text : Json.Layout → String}
    (taken : ∀ layout, drawer.node? layout [part, file] = some (.file (text layout))) :
    Secures (Advances layouts) origin home heads view
      (store.createFile name (store.root.trimmed ++ ([name, part] ++ [file])) (.ok content))
      (.ok false) (Eq view) := by
  obtain ⟨layout, _, identity, found⟩ := file_of_node keeps there taken
  have site := keeps.site there isPart stored
  exact site_createFile_taken vacant own (exists?_there vacant keeps own named there) site
    (site.advances_beside layouts) found

/-- A file is created where none is. -/
theorem createFile_free {content : String}
    (free : ∀ layout, drawer.node? layout [part, file] = none)
    (readable : ∀ identity, part = "docs" → Readable layouts file (.file identity content)) :
    Secures (Advances layouts) origin home heads view
      (store.createFile name (store.root.trimmed ++ ([name, part] ++ [file])) (.ok content))
      (.ok true) fun view' => ∃ identity, view'
        = Function.update view ([name, part] ++ [file]) (some (.file identity content)) := by
  have nothing := keeps.nothing named.ne_lockDirectory fun layout =>
    (Keeps.node?_eq there layout [part, file]).trans (free layout)
  have site := keeps.site there isPart stored
  refine site_createFile_free vacant own (exists?_there vacant keeps own named there) site
    (site.advances_beside layouts) nothing (site.advances_last fun identity other isNames =>
      readable identity ?_)
  exact (List.cons.inj (List.cons.inj isNames).2).1

end

/-! ## Operations -/

/-- An operation answers what the cabinet tells, and the cabinet that it leaves behind lies below
the root. -/
def Serves (store : FileStore) (origin : Disk) (home : Place) (heads : Set String)
    (layouts : Set Json.Layout) (locked : Branch) (cabinet : Cabinet) (view : Branch)
    (op : Storage.Op .json) : Prop :=
  Secures (Advances layouts) origin home heads view (store.perform op) (cabinet.perform store op).1
    (Keeps layouts (cabinet.perform store op).2 locked)

section

variable {store : FileStore} {origin : Disk} {home : Place} {heads : Set String}
  {layouts : Set Json.Layout} {cabinet : Cabinet} {locked view : Branch}
  (vacant : Vacant origin store.root home) (keeps : Keeps layouts cabinet locked view)
  (usual : store.layout ∈ layouts)
include vacant keeps

theorem serves_exists {name : String} (own : name ∈ heads) (named : Named name) :
    Serves store origin home heads layouts locked cabinet view (.exists name) :=
  (exists?_kept vacant keeps own named).mono fun _ same => same ▸ keeps

omit keeps in
theorem documentPath_eq {name : String} (named : Named name) (id : String) :
    store.documentPath name id = store.root.trimmed ++ ([name, "docs"] ++ [keyName id]) :=
  filePath_eq vacant.resolved named (.inl rfl) (keyName id)

omit keeps in
theorem checkPath_eq {name : String} (named : Named name) (key : String) :
    store.checkPath name key = store.root.trimmed ++ ([name, "constraints"] ++ [keyName key]) :=
  filePath_eq vacant.resolved named (.inr rfl) (keyName key)

omit vacant keeps in
include usual in
/-- The file of a document can be read. -/
theorem readable_document {id : String} {document : Json} (wellFormed : document.WellFormed)
    (isId : documentId? document = some id) (identity : Nat) :
    Readable layouts (keyName id) (.file identity (store.documentText document)) :=
  ⟨identity, store.layout, usual, document, id, rfl, wellFormed, isId, rfl⟩

include usual in
theorem serves_put {name id : String} {document : Json} (own : name ∈ heads)
    (fits : Storage.Op.Fits (.put name id document)) :
    Serves store origin home heads layouts locked cabinet view (.put name id document) := by
  obtain ⟨named, wellFormed, isId⟩ := fits
  have path := documentPath_eq vacant named id
  cases there : cabinet.drawer? name with
  | none =>
      simp only [Serves, perform, Cabinet.perform, putText, there]
      exact .bind_error ((createFile_missing vacant keeps own named there _ _).mono
        fun _ same => same ▸ keeps)
  | some drawer =>
      have node (layout : Json.Layout) := drawer.node?_document (keyName id) layout
      cases found : drawer.documents.lookup (keyName id) with
      | some old =>
          simp only [found] at node
          simp only [Serves, perform, Cabinet.perform, putText, there, found, path,
            Option.isSome_some, if_true]
          exact .bind_same (createFile_taken vacant keeps own named there (.inl rfl)
            (Files.stored_keyName id) node) (.fail _ keeps)
      | none =>
          simp only [found] at node
          simp only [Serves, perform, Cabinet.perform, putText, there, found, path,
            Option.isSome_none, Bool.false_eq_true, if_false]
          refine .bind (createFile_free vacant keeps own named there (.inl rfl)
            (Files.stored_keyName id) node fun identity _ =>
              readable_document usual wellFormed isId identity) fun _ held => .pure () ?_
          obtain ⟨identity, rfl⟩ := held
          exact keeps.change there ((keeps.drawerOrderly there).putAt wellFormed isId)
            (fun layout => drawer.node?_putDocument layout id document)
            ⟨store.layout, usual, rfl⟩

/-- A document is given to those who ask for it by its own identifier. -/
theorem serves_get (blank : ∀ layout ∈ layouts, layout.Blank) {name id : String}
    (own : name ∈ heads) (named : Named name) :
    Serves store origin home heads layouts locked cabinet view (.get name id) := by
  simp only [Serves, perform, Cabinet.perform, getFrom, documentPath_eq vacant named id]
  exact .bind_same (readDocumentFile_kept vacant keeps blank own named
    (Files.stored_keyName id).plain) (.pure _ keeps)

include usual in
theorem serves_replace {name id : String} {document : Json} (own : name ∈ heads)
    (fits : Storage.Op.Fits (.replace name id document)) :
    Serves store origin home heads layouts locked cabinet view (.replace name id document) := by
  obtain ⟨named, wellFormed, isId⟩ := fits
  have path := documentPath_eq vacant named id
  have plain := (Files.stored_keyName id).plain
  cases there : cabinet.drawer? name with
  | none =>
      simp only [Serves, perform, Cabinet.perform, replaceText, there, path]
      refine .bind_same (readDocument_missing vacant keeps own named (.inl rfl) plain
        fun drawer found => ?_) (.pure false keeps)
      exact absurd (there.symm.trans found) (by simp)
  | some drawer =>
      have node (layout : Json.Layout) := drawer.node?_document (keyName id) layout
      cases found : drawer.documents.lookup (keyName id) with
      | none =>
          simp only [found] at node
          simp only [Serves, perform, Cabinet.perform, replaceText, there, found, path,
            Option.isSome_none, Bool.false_eq_true, if_false]
          refine .bind_same (readDocument_missing vacant keeps own named (.inl rfl) plain
            fun drawer' there' => ?_) (.pure false keeps)
          obtain rfl : drawer = drawer' := Option.some.inj (there.symm.trans there')
          exact node
      | some old =>
          simp only [found] at node
          simp only [Serves, perform, Cabinet.perform, replaceText, there, found, path,
            Option.isSome_some, if_true]
          obtain ⟨_, _, reads⟩ := readDocument_there vacant keeps own there (.inl rfl) plain node
          obtain ⟨_, _, identity, isFile⟩ := file_of_node keeps there node
          refine .bind_same reads (.ofExcept_bind ?_)
          have site := keeps.site there (.inl rfl) (Files.stored_keyName id)
          refine .bind (site.atomicWrite vacant own (site.advances_beside layouts) isFile
            (site.advances_last fun identity _ _ => readable_document usual wellFormed isId identity))
            fun _ held => .pure true ?_
          obtain ⟨identity', rfl⟩ := held
          exact keeps.change there ((keeps.drawerOrderly there).putAt wellFormed isId)
            (fun layout => drawer.node?_putDocument layout id document)
            ⟨store.layout, usual, rfl⟩

include usual in
theorem serves_addCheck {name key : String} {check : Constraint} (own : name ∈ heads)
    (fits : Storage.Op.Fits (.addCheck name key check)) :
    Serves store origin home heads layouts locked cabinet view (.addCheck name key check) := by
  obtain ⟨named, rfl⟩ := fits
  have path := checkPath_eq vacant named check.name
  cases there : cabinet.drawer? name with
  | none =>
      simp only [Serves, perform, Cabinet.perform, there]
      exact (createFile_missing vacant keeps own named there _ _).mono fun _ same => same ▸ keeps
  | some drawer =>
      have node (layout : Json.Layout) := drawer.node?_check (keyName check.name) layout
      cases found : drawer.checks.lookup (keyName check.name) with
      | some old =>
          simp only [found] at node
          simp only [Serves, perform, Cabinet.perform, there, found, path, Option.isSome_some,
            if_true]
          exact (createFile_taken vacant keeps own named there (.inr rfl)
            (Files.stored_keyName check.name) node).mono fun _ same => same ▸ keeps
      | none =>
          simp only [found] at node
          simp only [Serves, perform, Cabinet.perform, there, found, path, Option.isSome_none,
            Bool.false_eq_true, if_false]
          refine (createFile_free vacant keeps own named there (.inr rfl)
            (Files.stored_keyName check.name) node fun _ isDocs => absurd isDocs (by decide)).mono
            fun _ held => ?_
          obtain ⟨identity, rfl⟩ := held
          exact keeps.change there ((keeps.drawerOrderly there).putCheckAt check)
            (fun layout => drawer.node?_putCheck layout check.name check)
            ⟨store.layout, usual, rfl⟩

/-- A file of a collection is removed if it is there. -/
theorem removeDocument_kept {name : String} (own : name ∈ heads) {drawer : Drawer}
    (there : cabinet.drawer? name = some drawer) {part : String} (isPart : isPart part)
    {file : String} (plain : Plain file) (text : Option (Json.Layout → String))
    (node : ∀ layout, drawer.node? layout [part, file] = text.map fun text => .file (text layout)) :
    Secures (Advances layouts) origin home heads view
      (Files.removeDocument (store.root.trimmed ++ ([name, part] ++ [file]))) (.ok text.isSome)
      (Eq (Function.update view ([name, part] ++ [file]) none)) := by
  have named := keeps.named there
  cases text with
  | none =>
      have nothing := keeps.nothing named.ne_lockDirectory fun layout =>
        (Keeps.node?_eq there layout [part, file]).trans (node layout)
      have absent := absent_file keeps named isPart fun drawer' there' => by
        obtain rfl : drawer = drawer' := Option.some.inj (there.symm.trans there')
        exact node
      rw [← nothing, List.cons_append, List.cons_append, List.nil_append, Function.update_eq_self]
      exact .removeDocument_absent vacant absent own (named.plain_names isPart plain)
        (show 3 ≤ 3 by decide)
  | some text =>
      obtain ⟨_, _, identity, isFile⟩ := file_of_node keeps there node
      exact .removeDocument_file vacant (keeps.leads_part there isPart) own
        (named.plain_names isPart plain) (show 2 < 3 by decide) isFile (keeps.bare there file)
        fun _ => .of_removal rfl

theorem serves_deleteById {name id : String} (own : name ∈ heads) (named : Named name) :
    Serves store origin home heads layouts locked cabinet view (.deleteById name id) := by
  have path := documentPath_eq vacant named id
  have plain := (Files.stored_keyName id).plain
  cases there : cabinet.drawer? name with
  | none =>
      simp only [Serves, perform, Cabinet.perform, there, path]
      refine (Secures.removeDocument_absent vacant (absent_file keeps named (.inl rfl)
        fun drawer found => ?_) own (named.plain_names (.inl rfl) plain) (show 3 ≤ 3 by decide)).mono
        fun _ same => same ▸ keeps
      exact absurd (there.symm.trans found) (by simp)
  | some drawer =>
      have removes := removeDocument_kept vacant keeps own there (.inl rfl) plain
        ((drawer.documents.lookup (keyName id)).map fun document layout =>
          Json.canonicalText layout .document document) fun layout => by
          rw [drawer.node?_document, Option.map_map]
          rfl
      rw [Option.isSome_map] at removes
      simp only [Serves, perform, Cabinet.perform, there, path]
      obtain ⟨layout, member⟩ := keeps.exists_layout
      refine removes.mono fun _ same => same ▸ ?_
      exact keeps.change there ((keeps.drawerOrderly there).withoutFiles _)
        (drawer.node?_withoutFile (keyName id)) ⟨layout, member, rfl⟩

theorem serves_dropCheck {name key : String} (own : name ∈ heads) (named : Named name) :
    Serves store origin home heads layouts locked cabinet view (.dropCheck name key) := by
  have path := checkPath_eq vacant named key
  have plain := (Files.stored_keyName key).plain
  cases there : cabinet.drawer? name with
  | none =>
      simp only [Serves, perform, Cabinet.perform, there, path]
      refine (Secures.removeDocument_absent vacant (absent_file keeps named (.inr rfl)
        fun drawer found => ?_) own (named.plain_names (.inr rfl) plain) (show 3 ≤ 3 by decide)).mono
        fun _ same => same ▸ keeps
      exact absurd (there.symm.trans found) (by simp)
  | some drawer =>
      have removes := removeDocument_kept vacant keeps own there (.inr rfl) plain
        ((drawer.checks.lookup (keyName key)).map fun check layout =>
          Drawer.checkText layout check) fun layout => by
          rw [drawer.node?_check, Option.map_map]
          rfl
      rw [Option.isSome_map] at removes
      simp only [Serves, perform, Cabinet.perform, there, path]
      obtain ⟨layout, member⟩ := keeps.exists_layout
      refine removes.mono fun _ same => same ▸ ?_
      exact keeps.change there ((keeps.drawerOrderly there).withoutCheck _)
        (drawer.node?_withoutCheck (keyName key)) ⟨layout, member, rfl⟩

end

end DocStore.FileStore
