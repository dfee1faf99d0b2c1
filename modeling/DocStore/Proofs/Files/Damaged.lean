import DocStore.Proofs.Files.Documents
/-!
# Files with any content

Whatever lies in the directories of a collection need not have been written by the storage.  A file
holds a value of the sort that is kept there, or JSON null, or it is damaged (`Form.isDamaged`).
`Shelf` says which files of a directory a storage goes through, by name and each with its content;
every directory has them (`exists_shelf`, `exists_shelf_of_shows`).

A scan and a listing of the constraints go through all files before anything else happens, so one
damaged file makes them fail, with a fault that names the first such file, while a file that holds
null counts as absent: `scan_shelf`, `checks_shelf` and `Form.tellAll_error_iff`.
-/

set_option autoImplicit false

namespace DocStore.FileStore

open Disk (Branch Path Place Plain Under Vacant)
open Files (Named isHidden hasEnding storedEnding)
open Host (Action Secures)

/-! ## What a content tells -/

/-- A sort of values that is kept in files. -/
structure Form (α : Type) where
  /-- What a JSON value holds, if it is of the sort. -/
  of? : Json → Option α
  /-- Null is of no sort. -/
  ofNull : of? .null = none
  /-- What is said of a JSON value of another sort. -/
  refusal : String

namespace Form

variable {α : Type} (form : Form α)

/-- What the text of a file holds. -/
def in? (content : String) : Option α :=
  (Json.parse? content).bind form.of?

/-- Whether the text of a file holds neither a value of the sort nor null. -/
def isDamaged (content : String) : Bool :=
  (form.in? content).isNone && Json.parse? content != some .null

/-- Why a damaged file cannot be read. -/
def failure (path : Path) (content : String) : Failure :=
  .database ⟨.read path.text,
    some (if (Json.parse? content).isSome then .stated form.refusal else .malformedJson)⟩

/-- What comes of reading a file. -/
def tells (path : Path) (content : String) : Except Failure (Option α) :=
  if form.isDamaged content then .error (form.failure path content) else .ok (form.in? content)

/-- What comes of reading the files of a directory: all that they hold, unless one is damaged. -/
def tellAll (directory : Path) (files : List (String × String)) : Except Failure (List α) :=
  match files.find? fun file => form.isDamaged file.2 with
  | some file => .error (form.failure (directory.child file.1) file.2)
  | none => .ok (files.filterMap fun file => form.in? file.2)

/-- Read a file that keeps a value of the sort. -/
def read (path : Path) : Action (Option α) := do
  match ← readJson path with
  | none => return none
  | some value =>
      if value = .null then return none
      else
        match form.of? value with
        | some kept => return some kept
        | none => Attempt.fail (damaged path form.refusal)

end Form

/-- Documents are the values with a text for their identifier. -/
def documentForm : Form Json where
  of? value := if (documentId? value).isSome then some value else none
  ofNull := rfl
  refusal := "File does not hold a document with a string _id"

/-- Constraints are kept with their names. -/
def checkForm : Form (StoredCheck .json) where
  of? := storedCheck?
  ofNull := rfl
  refusal := "File does not hold a constraint record"

theorem readDocumentFile_eq : readDocumentFile = documentForm.read := by
  funext path
  refine congrArg (readJson path >>= ·) (funext fun found => ?_)
  match found with
  | none | some (.leaf .null) => rfl
  | some (.leaf (.boolean _)) | some (.leaf (.number _)) | some (.leaf (.string _))
  | some (.array _) | some (.object _) =>
      simp only [documentForm, reduceCtorEq, Tree.leaf.injEq, if_false]
      split <;> simp_all

theorem readCheckFile_eq : readCheckFile = checkForm.read := by
  funext path
  refine congrArg (readJson path >>= ·) (funext fun found => ?_)
  match found with
  | none | some (.leaf .null) => rfl
  | some (.leaf (.boolean _)) | some (.leaf (.number _)) | some (.leaf (.string _))
  | some (.array _) | some (.object _) =>
      simp only [checkForm, reduceCtorEq, Tree.leaf.injEq, if_false]
      cases storedCheck? _ <;> rfl

/-! ## Contents one by one -/

section

variable {α : Type} {form : Form α}

/-- A file is damaged exactly when its text is no JSON, or JSON other than null that is not of the
sort that is kept there. -/
theorem Form.isDamaged_iff {content : String} : form.isDamaged content = true
    ↔ ∀ value, Json.parse? content = some value → value ≠ .null ∧ form.of? value = none := by
  unfold Form.isDamaged Form.in?
  cases Json.parse? content with
  | none => simp
  | some value => simp [and_comm]

/-- A file that holds null counts as a file that holds nothing. -/
theorem Form.tells_null (path : Path) {content : String}
    (isNull : Json.parse? content = some .null) : form.tells path content = .ok none := by
  have notDamaged : form.isDamaged content = false := by simp [Form.isDamaged, isNull]
  rw [Form.tells, notDamaged, Form.in?, isNull, Option.bind_some, form.ofNull]
  rfl

variable {moves : Nat → Branch → Branch → Prop} {origin : Disk} {root : Path} {home : Place}
  {heads : Set String} {view : Branch} (vacant : Vacant origin root home)
include vacant

variable (form moves) in
/-- What comes of reading a file, whatever it holds. -/
theorem Form.read_content {names : List String} (leads : view.Leads names) {last : String}
    (own : Under heads (names ++ [last])) (plain : ∀ name ∈ names ++ [last], Plain name)
    (few : names.length < Disk.maxDepth) {identity : Nat} {content : String}
    (isFile : view (names ++ [last]) = some (.file identity content)) :
    Secures moves origin home heads view (form.read (root.trimmed ++ (names ++ [last])))
      (form.tells (root.trimmed ++ (names ++ [last])) content) (Eq view) := by
  have reads : Secures moves origin home heads view (Files.readDocument _) _ _ :=
    .readDocument_file vacant leads own plain few isFile
  generalize root.trimmed ++ (names ++ [last]) = path at reads ⊢
  cases parsed : Json.parse? content with
  | none =>
      have isDamaged : form.isDamaged content = true := by simp [isDamaged_iff, parsed]
      rw [Form.tells, if_pos isDamaged, Form.failure, parsed]
      refine .bind_error (reads.bind_same ?_)
      simp only [parsed]
      exact .fail _ rfl
  | some value =>
      refine .bind_same (readJson_text reads parsed) ?_
      by_cases isNull : value = .null
      · rw [form.tells_null path (isNull ▸ parsed), isNull]
        exact .pure none rfl
      · simp only [if_neg isNull]
        cases found : form.of? value with
        | none =>
            have isDamaged : form.isDamaged content = true := by
              simp [isDamaged_iff, parsed, isNull, found]
            rw [Form.tells, if_pos isDamaged, Form.failure, parsed]
            exact .fail _ rfl
        | some kept =>
            have isFound : form.in? content = some kept := by
              rw [in?, parsed, Option.bind_some, found]
            have notDamaged : form.isDamaged content = false := by simp [isDamaged, isFound]
            rw [Form.tells, notDamaged, isFound]
            exact .pure _ rfl

end

/-! ## The files of a directory -/

/-- Files that lie in a directory, each with its name and its content. -/
structure Filed (view : Branch) (directory : List String) (files : List (String × String)) :
    Prop where
  leads : view.Leads directory
  distinct : (files.map Prod.fst).Nodup
  plain : ∀ file ∈ files, Plain file.1
  there : ∀ file ∈ files, ∃ identity,
    view (directory ++ [file.1]) = some (.file identity file.2)
  bare : ∀ file ∈ files, view.Bare (directory ++ [file.1])

/-- All files of a directory that a storage goes through, in the order of their names. -/
structure Shelf (view : Branch) (directory : List String) (files : List (String × String)) : Prop
    extends Filed view directory files where
  sorted : Sorting.Sorted Text.before (files.map Prod.fst)
  all : ∀ name, name ∈ files.map Prod.fst ↔ (isHidden name = false
    ∧ hasEnding storedEnding name = true) ∧ ∃ entry, view (directory ++ [name]) = some entry
      ∧ entry.kind = .file
  listed : ∃ listed, view.Lists directory listed

theorem Filed.plain_names {view : Branch} {directory : List String} {files : List (String × String)}
    (filed : Filed view directory files) (plain : ∀ name ∈ directory, Plain name)
    {file : String × String} (member : file ∈ files) :
    ∀ name ∈ directory ++ [file.1], Plain name := by
  intro name isName
  rcases List.mem_append.mp isName with inDirectory | isFile
  · exact plain name inDirectory
  · exact List.mem_singleton.mp isFile ▸ filed.plain file member

/-- The other files lie there as well, also when the first one has been removed. -/
theorem Filed.rest {view : Branch} {directory : List String} {file : String × String}
    {files : List (String × String)} (filed : Filed view directory (file :: files)) :
    Filed view directory files where
  leads := filed.leads
  distinct := (List.nodup_cons.mp filed.distinct).2
  plain other member := filed.plain other (List.mem_cons_of_mem _ member)
  there other member := filed.there other (List.mem_cons_of_mem _ member)
  bare other member := filed.bare other (List.mem_cons_of_mem _ member)

theorem Filed.removed {view : Branch} {directory : List String} {file : String × String}
    {files : List (String × String)} (filed : Filed view directory (file :: files)) :
    Filed (Function.update view (directory ++ [file.1]) none) directory files where
  leads := filed.leads.update_last file.1 none
  distinct := filed.rest.distinct
  plain := filed.rest.plain
  there other member := by
    have differ : other.1 ≠ file.1 := fun same =>
      (List.nodup_cons.mp filed.distinct).1 (same ▸ List.mem_map_of_mem member)
    rw [Function.update_of_ne (by simpa using differ)]
    exact filed.rest.there other member
  bare other member rest nonempty := by
    rw [Function.update_apply]
    split
    · rfl
    · exact filed.rest.bare other member rest nonempty

/-- The content of a file. -/
def textAt (view : Branch) (names : List String) : String :=
  match view names with
  | some (.file _ content) => content
  | _ => ""

/-- A directory that can be listed and whose files have usual names has its files to go through. -/
theorem exists_shelf {view : Branch} {directory : List String} (leads : view.Leads directory)
    {listed : List (String × Disk.EntryKind)} (lists : view.Lists directory listed)
    (usual : ∀ name entry, view (directory ++ [name]) = some entry → entry.kind = .file →
      Plain name ∧ view.Bare (directory ++ [name])) :
    ∃ files, Shelf view directory files := by
  let names := Sorting.sort Text.before (((listed.filter fun entry => entry.2 == .file).map
    Prod.fst).filter fun name => !isHidden name && hasEnding storedEnding name)
  have isName (name : String) : name ∈ names ↔ (isHidden name = false
      ∧ hasEnding storedEnding name = true) ∧ ∃ entry, view (directory ++ [name]) = some entry
        ∧ entry.kind = .file := by
    rw [(Sorting.sort_perm _ _).mem_iff, List.mem_filter, lists.mem_ofKind .file, and_comm]
    simp
  have firsts : (names.map fun name => (name, textAt view (directory ++ [name]))).map Prod.fst
      = names := by rw [List.map_map]; exact List.map_id names
  have each {file : String × String}
      (member : file ∈ names.map fun name => (name, textAt view (directory ++ [name]))) :
      ∃ identity, view (directory ++ [file.1]) = some (.file identity file.2) := by
    obtain ⟨name, inNames, rfl⟩ := List.mem_map.mp member
    obtain ⟨-, entry, found, isFile⟩ := (isName name).mp inNames
    cases entry with
    | file identity content => exact ⟨identity, by simp [textAt, found]⟩
    | directory _ | link _ => cases isFile
  refine ⟨names.map fun name => (name, textAt view (directory ++ [name])), {
    leads := leads
    distinct := ?_
    plain := fun file member => ?_
    there := fun file member => each member
    bare := fun file member => ?_
    sorted := ?_
    all := ?_
    listed := ⟨listed, lists⟩ }⟩
  · rw [firsts, (Sorting.sort_perm _ _).nodup_iff]
    exact (lists.nodup_ofKind .file).filter _
  · obtain ⟨identity, found⟩ := each member
    exact (usual _ _ found rfl).1
  · obtain ⟨identity, found⟩ := each member
    exact (usual _ _ found rfl).2
  · rw [firsts]
    exact Sorting.sorted_sort Text.ranks_before _
  · rw [firsts]
    exact isName

theorem exists_shelf_of_shows {origin : Disk} {home : Place} {view : Branch} {disk : Disk}
    (shows : Disk.Shows origin home view disk) {directory : List String}
    (leads : view.Leads directory)
    (usual : ∀ name entry, view (directory ++ [name]) = some entry → entry.kind = .file →
      Plain name ∧ view.Bare (directory ++ [name])) :
    ∃ files, Shelf view directory files :=
  exists_shelf leads (shows.lists directory) usual

section

variable {α : Type} {form : Form α} {moves : Nat → Branch → Branch → Prop} {origin : Disk}
  {root : Path} {home : Place} {heads : Set String} {view : Branch}
  (vacant : Vacant origin root home) {name part : String}
  {files : List (String × String)} (own : name ∈ heads)
  (plain : ∀ other ∈ [name] ++ [part], Plain other)
include vacant own plain

/-- The files that a storage goes through are listed in the order of their names. -/
theorem Shelf.listFiles (shelf : Shelf view ([name] ++ [part]) files) :
    Secures moves origin home heads view
      (Files.listFiles (root.trimmed ++ ([name] ++ [part])) storedEnding)
      (.ok (files.map Prod.fst)) (Eq view) := by
  obtain ⟨identity, isDirectory⟩ := shelf.leads [name, part] (List.prefix_refl _) (by simp)
  have leads : view.Leads [name] := fun front isFront => shelf.leads front
    (isFront.trans ⟨[part], rfl⟩)
  obtain ⟨listed, lists⟩ := shelf.listed
  have distinct := lists.nodup_ofKind .file
  have holds := lists.mem_ofKind .file
  generalize (listed.filter fun entry => entry.2 == .file).map Prod.fst = found at distinct holds
  refine .bind_same (.listEntries_directory vacant leads own plain (show 1 < 3 by decide)
    isDirectory found distinct holds) ?_
  have stored : ((Sorting.sort Text.before found).filter fun name =>
      !isHidden name && (storedEnding = "" || hasEnding storedEnding name))
        = files.map Prod.fst := by
    rw [Sorting.filter_sort Text.ranks_before _ fun _ _ _ _ => Text.eq_of_not_before]
    refine (Sorting.eq_sort_of_sorted Text.ranks_before shelf.sorted ?_
      fun _ _ _ _ => Text.eq_of_not_before).symm
    refine (List.perm_ext_iff_of_nodup shelf.distinct (distinct.filter _)).mpr fun name => ?_
    have isEnding : storedEnding ≠ "" := by decide
    rw [shelf.all, List.mem_filter, holds, and_comm]
    simp [isEnding]
  rw [stored]
  exact .pure _ rfl

omit vacant own in
theorem child_file (file : String) : Path.child (root.trimmed ++ ([name] ++ [part])) file
    = root.trimmed ++ ([name] ++ [part] ++ [file]) := by
  rw [← List.append_assoc root.trimmed [name], Path.child_concat _ (plain part (by simp)).nonempty,
    List.append_assoc]
  rfl

variable (form moves) in
/-- What comes of reading one of the files. -/
theorem Filed.read (filed : Filed view ([name] ++ [part]) files) {file : String × String}
    (member : file ∈ files) :
    Secures moves origin home heads view
      (form.read (Path.child (root.trimmed ++ ([name] ++ [part])) file.1))
      (form.tells (Path.child (root.trimmed ++ ([name] ++ [part])) file.1) file.2) (Eq view) := by
  obtain ⟨identity, isFile⟩ := filed.there file member
  rw [child_file plain]
  exact form.read_content moves vacant filed.leads own (filed.plain_names plain member)
    (show 2 < 3 by decide) isFile

variable (form moves) in
/-- The files are read one after another, up to the first that is damaged. -/
theorem Filed.forEach (filed : Filed view ([name] ++ [part]) files) :
    Secures moves origin home heads view
      (Attempt.forEach (files.map Prod.fst) fun file =>
        form.read (Path.child (root.trimmed ++ ([name] ++ [part])) file))
      (match files.find? fun file => form.isDamaged file.2 with
        | some file => .error
            (form.failure (Path.child (root.trimmed ++ ([name] ++ [part])) file.1) file.2)
        | none => .ok (files.map fun file => form.in? file.2)) (Eq view) := by
  have each {file : String × String} (member : file ∈ files) :=
    filed.read form moves vacant own plain member
  generalize root.trimmed ++ ([name] ++ [part]) = directory at each ⊢
  clear filed
  induction files with
  | nil => exact .pure [] rfl
  | cons file rest ih =>
      have reads := each (List.mem_cons_self)
      have others := ih fun member => each (List.mem_cons_of_mem _ member)
      rw [Form.tells] at reads
      rw [List.find?_cons]
      cases isDamaged : form.isDamaged file.2 with
      | true =>
          rw [if_pos isDamaged] at reads
          exact .bind_error reads
      | false =>
          rw [isDamaged, if_neg Bool.false_ne_true] at reads
          refine .bind_same reads ?_
          cases found : rest.find? fun file => form.isDamaged file.2 with
          | some damaged =>
              rw [found] at others
              exact .bind_error others
          | none =>
              rw [found] at others
              exact .bind_same others (.pure _ rfl)

variable (form moves) in
/-- All files are read, or the first damaged one makes the reading fail. -/
theorem Filed.readAll (filed : Filed view ([name] ++ [part]) files) :
    Secures moves origin home heads view (do
      let found ← Attempt.forEach (files.map Prod.fst) fun file =>
        form.read (Path.child (root.trimmed ++ ([name] ++ [part])) file)
      return found.filterMap id)
      (form.tellAll (root.trimmed ++ ([name] ++ [part])) files) (Eq view) := by
  have reads := filed.forEach form moves vacant own plain
  rw [Form.tellAll]
  cases found : files.find? fun file => form.isDamaged file.2 with
  | some damaged =>
      rw [found] at reads
      exact .bind_error reads
  | none =>
      rw [found] at reads
      refine .bind_same reads ?_
      rw [List.filterMap_map]
      exact .pure _ rfl

end

/-- One damaged file is enough for the reading to fail, with a fault of reading that names the first
damaged one. -/
theorem Form.tellAll_error_iff {α : Type} {form : Form α} {directory : Path}
    {files : List (String × String)} {failure : Failure} :
    form.tellAll directory files = .error failure
      ↔ ∃ before file after, files = before ++ file :: after
        ∧ (∀ other ∈ before, form.isDamaged other.2 = false) ∧ form.isDamaged file.2 = true
        ∧ failure = form.failure (directory.child file.1) file.2 := by
  rw [tellAll]
  constructor
  · intro fails
    cases found : files.find? fun file => form.isDamaged file.2 with
    | none =>
        rw [found] at fails
        cases fails
    | some damaged =>
        rw [found] at fails
        obtain ⟨isDamaged, before, after, split, sound⟩ := List.find?_eq_some_iff_append.mp found
        exact ⟨before, damaged, after, split, by simpa using sound, isDamaged,
          (Except.error.inj fails).symm⟩
  · rintro ⟨before, file, after, split, sound, isDamaged, rfl⟩
    have found : (files.find? fun file => form.isDamaged file.2) = some file :=
      List.find?_eq_some_iff_append.mpr ⟨isDamaged, before, after, split, by simpa using sound⟩
    rw [found]

theorem Form.exists_tellAll_error_iff {α : Type} {form : Form α} {directory : Path}
    {files : List (String × String)} : (∃ failure, form.tellAll directory files = .error failure)
      ↔ ∃ file ∈ files, form.isDamaged file.2 = true := by
  rw [← List.find?_isSome, tellAll]
  cases files.find? fun file => form.isDamaged file.2 <;> simp

/-- Files that hold the values of some entries, each under its name. -/
def Form.Holds {α : Type} (form : Form α) (files : List (String × String))
    (entries : List (String × α)) : Prop :=
  files.map (fun file => (file.1, form.in? file.2))
    = entries.map fun entry => (entry.1, some entry.2)

section

variable {α : Type} {form : Form α} {files : List (String × String)} {entries : List (String × α)}
  (holds : form.Holds files entries)
include holds

theorem Form.Holds.notDamaged : ∀ file ∈ files, form.isDamaged file.2 = false := by
  intro file member
  have inEntries : (file.1, form.in? file.2) ∈ entries.map fun entry => (entry.1, some entry.2) :=
    holds ▸ List.mem_map_of_mem member
  obtain ⟨entry, _, same⟩ := List.mem_map.mp inEntries
  simp [Form.isDamaged, ← (Prod.mk.inj same).2]

/-- Files that hold some values tell all of them. -/
theorem Form.Holds.tellAll (directory : Path) :
    form.tellAll directory files = .ok (entries.map Prod.snd) := by
  have noneDamaged : (files.find? fun file => form.isDamaged file.2) = none :=
    List.find?_eq_none.mpr fun file member => by simp [holds.notDamaged file member]
  have values := congrArg (List.filterMap Prod.snd) holds
  rw [List.filterMap_map, List.filterMap_map] at values
  rw [Form.tellAll, noneDamaged]
  exact congrArg Except.ok (values.trans (congrFun List.filterMap_eq_map entries))

end

/-! ## Reading -/

section

variable {moves : Nat → Branch → Branch → Prop} {store : FileStore} {origin : Disk} {home : Place}
  {heads : Set String} {view : Branch} (vacant : Vacant origin store.root home) {name : String}
  {files : List (String × String)} (own : name ∈ heads) (named : Named name)
include vacant own named

/-- A scan reads all files before it answers. -/
theorem scan_shelf (shelf : Shelf view ([name] ++ ["docs"]) files) (wanted : Json → Bool) :
    Secures moves origin home heads view (store.scan name wanted)
      ((documentForm.tellAll (store.documentsPath name) files).map (List.filter wanted))
      (Eq view) := by
  have plain := named.plain_documents
  obtain ⟨identity, isDirectory⟩ := shelf.leads [name, "docs"] (List.prefix_refl _) (by simp)
  have leads : view.Leads [name] := fun front isFront => shelf.leads front
    (isFront.trans ⟨["docs"], rfl⟩)
  have identified : Secures moves origin home heads view
      (Files.directoryIdentity (store.root.trimmed ++ ([name] ++ ["docs"])))
      (.ok (some identity)) (Eq view) :=
    .directoryIdentity_directory vacant leads own plain (show 1 < 3 by decide) isDirectory
  have reads := shelf.readAll documentForm moves vacant own plain
  simp only [scan, documentsPath, partPath_eq vacant.resolved named]
  refine .bind_same identified (.bind_same (shelf.listFiles vacant own plain) ?_)
  rw [readDocuments, readDocumentFile_eq]
  cases told : documentForm.tellAll (store.root.trimmed ++ ([name] ++ ["docs"])) files with
  | error failure =>
      rw [told] at reads
      exact .bind_error reads
  | ok documents =>
      rw [told] at reads
      refine .bind_same reads (.bind_same identified ?_)
      rw [if_pos rfl]
      exact .pure _ rfl

/-- The constraints of a collection are all read before any is told. -/
theorem checks_shelf (shelf : Shelf view ([name] ++ ["constraints"]) files) :
    Secures moves origin home heads view (store.checks name)
      (checkForm.tellAll (store.checksPath name) files) (Eq view) := by
  have plain : ∀ other ∈ [name] ++ ["constraints"], Plain other := fun other member =>
    named.plain_names (.inr rfl) (isPart.stored (.inr rfl)) other (List.mem_append_left _ member)
  simp only [checks, checksPath, partPath_eq vacant.resolved named]
  refine .bind_same (shelf.listFiles vacant own plain) ?_
  rw [readCheckFile_eq]
  exact shelf.readAll checkForm moves vacant own plain

/-- The document of an identifier, whatever its file holds. -/
theorem getFrom_content {id content : String} {identity : Nat}
    (leads : view.Leads [name, "docs"])
    (isFile : view ([name, "docs"] ++ [Files.keyName id]) = some (.file identity content)) :
    Secures moves origin home heads view (getFrom (store.documentPath name id) id)
      ((documentForm.tells (store.documentPath name id) content).map
        (Option.filter fun value => documentId? value == some id)) (Eq view) := by
  have plain := named.plain_names (.inl rfl) (Files.stored_keyName id).plain
  have reads := documentForm.read_content moves vacant leads own plain
    (show 2 < 3 by decide) isFile
  rw [documentPath, documentsPath, filePath_eq vacant.resolved named (.inl rfl), getFrom,
    readDocumentFile_eq]
  cases told : documentForm.tells _ content with
  | error failure =>
      rw [told] at reads
      exact .bind_error reads
  | ok found =>
      rw [told] at reads
      exact .bind_same reads (.pure _ rfl)

end

end DocStore.FileStore
