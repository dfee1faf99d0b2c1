import DocStore.Proofs.Files.Removal
/-!
# Operations on all documents of a collection

Scanning, removing and listing go through the files of a directory in the order of their names.  In
a collection of a cabinet these are the files of its documents or constraints, none of them damaged
(`stocks_kept` and `shelf_kept`).  So `serves_scan`, `serves_checks` and `serves_deleteMatching`
follow from what is known of files with any content: they answer and leave behind what
`Cabinet.perform` says.
-/

set_option autoImplicit false

namespace DocStore.FileStore

open Disk (Branch Entry Place Vacant)
open Files (Named Stored storedEnding)
open Host (Secures)

section

variable {store : FileStore} {origin : Disk} {home : Place} {heads : Set String}
  {layouts : Set Json.Layout} {cabinet : Cabinet} {locked view : Branch}
  (vacant : Vacant origin store.root home) (keeps : Keeps layouts cabinet locked view)
  {name : String} (own : name ∈ heads)
include vacant keeps own

/-! ## Listing -/

theorem listFiles_missing (named : Named name) (missing : cabinet.drawer? name = none)
    {part : String} (isPart : isPart part) :
    Secures (Advances layouts) origin home heads view
      (Files.listFiles (store.root.trimmed ++ ([name] ++ [part])) storedEnding) (.ok [])
      (Eq view) := by
  have plain := (named.plain_names isPart isPart.stored)
  exact .bind_same (.listEntries_absent vacant
    (keeps.absent named.ne_lockDirectory missing [part]) own
    (fun other member => plain other (List.mem_append_left _ member)) (show 2 ≤ 3 by decide) .file)
    (.pure [] rfl)

end

/-! ## The files of a collection -/

/-- A directory in which the texts of some entries lie, each under the name of its entry and in one
of the layouts, and nothing else. -/
structure Stocks {β : Type} (layouts : Set Json.Layout) (view : Branch) (directory : List String)
    (text : Json.Layout → β → String) (kept : List (String × β)) : Prop where
  distinct : (kept.map Prod.fst).Nodup
  there : ∀ entry ∈ kept, ∃ layout ∈ layouts, ∃ identity,
    view (directory ++ [entry.1]) = some (.file identity (text layout entry.2))
  only : ∀ file found, view (directory ++ [file]) = some found → ∃ entry, (file, entry) ∈ kept
    ∧ ∃ layout ∈ layouts, ∃ identity, found = .file identity (text layout entry)

namespace Stocks

variable {β : Type} {layouts : Set Json.Layout} {view : Branch} {directory : List String}
  {text : Json.Layout → β → String} {kept : List (String × β)}
  (stocks : Stocks layouts view directory text kept)
include stocks

theorem lists : view.Lists directory (kept.map fun entry => (entry.1, .file)) := by
  have names := Lookup.map_fst_map (fun _ : β => Disk.EntryKind.file) kept
  refine ⟨names ▸ stocks.distinct, fun file kind => ?_⟩
  rw [List.mem_map]
  constructor
  · rintro ⟨entry, member, same⟩
    obtain ⟨rfl, rfl⟩ := Prod.mk.inj same
    obtain ⟨layout, _, identity, isFile⟩ := stocks.there entry member
    exact ⟨_, isFile, rfl⟩
  · rintro ⟨found, isFound, rfl⟩
    obtain ⟨entry, member, _, _, _, rfl⟩ := stocks.only file found isFound
    exact ⟨(file, entry), member, rfl⟩

variable {files : List (String × String)} (shelf : Shelf view directory files)
include shelf

/-- The names of the entries are the names of the files to go through. -/
theorem names (stored : ∀ entry ∈ kept, Stored entry.1) :
    files.map Prod.fst = Sorting.sort Text.before (kept.map Prod.fst) := by
  refine Sorting.eq_sort_of_sorted Text.ranks_before shelf.sorted ?_
    fun _ _ _ _ => Text.eq_of_not_before
  refine (List.perm_ext_iff_of_nodup shelf.distinct stocks.distinct).mpr fun file => ?_
  rw [shelf.all]
  constructor
  · rintro ⟨_, found, isFound, _⟩
    obtain ⟨entry, member, _⟩ := stocks.only file found isFound
    exact List.mem_map_of_mem member
  · intro isName
    obtain ⟨entry, member, rfl⟩ := List.mem_map.mp isName
    obtain ⟨layout, _, identity, isFile⟩ := stocks.there entry member
    exact ⟨⟨(stored _ member).seen, (stored _ member).ends⟩, _, isFile, rfl⟩

/-- When each text is read back as a value the files hold the values in order. -/
theorem holds (stored : ∀ entry ∈ kept, Stored entry.1) {α : Type} {form : Form α} (value : β → α)
    (reads : ∀ entry ∈ kept, ∀ layout ∈ layouts,
      form.in? (text layout entry.2) = some (value entry.2)) :
    form.Holds files ((Sorting.sort (fun first second => Text.before first.1 second.1) kept).map
      fun entry => (entry.1, value entry.2)) := by
  -- both lists give the names in order, each with the value of what is kept under it
  let valued (file : String) : String × Option α := (file, (kept.lookup file).map value)
  have found {file : String} {entry : β} (member : (file, entry) ∈ kept) :
      valued file = (file, some (value entry)) := by
    simp only [valued, (Lookup.lookup_eq_some_iff stocks.distinct).mpr member, Option.map_some]
  have fromFiles : files.map (fun file => (file.1, form.in? file.2))
      = (files.map Prod.fst).map valued := by
    rw [List.map_map]
    refine List.map_congr_left fun file member => ?_
    obtain ⟨identity, isFile⟩ := shelf.there file member
    obtain ⟨entry, inKept, layout, isLayout, identity', same⟩ := stocks.only _ _ isFile
    rw [Function.comp, found inKept, (Entry.file.inj same).2, reads _ inKept layout isLayout]
  rw [Form.Holds, fromFiles, stocks.names shelf stored, ← Sorting.map_sort, List.map_map,
    List.map_map]
  refine List.map_congr_left fun entry member => ?_
  exact found ((Sorting.sort_perm _ kept).mem_iff.mp member)

end Stocks

section

variable {layouts : Set Json.Layout} {cabinet : Cabinet} {locked view : Branch}
  (keeps : Keeps layouts cabinet locked view) {name : String} {drawer : Drawer}
  (there : cabinet.drawer? name = some drawer)
include keeps there

/-- The directories of a collection hold the files that the collection keeps there. -/
theorem stocks_kept {part : String} {β : Type} {text : Json.Layout → β → String}
    {kept : List (String × β)} (distinct : (kept.map Prod.fst).Nodup)
    (node : ∀ layout file, drawer.node? layout [part, file]
      = (kept.lookup file).map fun entry => .file (text layout entry)) :
    Stocks layouts view ([name] ++ [part]) text kept where
  distinct := distinct
  there entry member :=
    keeps.file (keeps.named there).ne_lockDirectory fun layout =>
      (Keeps.node?_eq there layout [part, entry.1]).trans
        (by rw [node, (Lookup.lookup_eq_some_iff distinct).mpr member, Option.map_some])
  only file found isFound := by
    obtain ⟨layout, member, same⟩ := keeps.node_eq [part, file] (keeps.named there).ne_lockDirectory
    have isThere : view (name :: [part, file]) = some found := isFound
    rw [Keeps.node?_eq there, node, isThere] at same
    obtain ⟨entry, isEntry, isNode⟩ := Option.map_eq_some_iff.mp same.symm
    cases found with
    | file identity content =>
        cases isNode
        exact ⟨entry, Lookup.mem_of_lookup isEntry, layout, member, identity, rfl⟩
    | directory _ | link _ => cases isNode

/-- The files of a part of a collection, when each text is read back as a value. -/
theorem shelf_kept {part : String} (isPart : isPart part) {α β : Type} {form : Form α}
    {kept : List (String × β)} {text : Json.Layout → β → String} (value : β → α)
    (stocks : Stocks layouts view ([name] ++ [part]) text kept)
    (stored : ∀ entry ∈ kept, Stored entry.1)
    (reads : ∀ entry ∈ kept, ∀ layout ∈ layouts,
      form.in? (text layout entry.2) = some (value entry.2)) :
    ∃ files, Shelf view ([name] ++ [part]) files
      ∧ form.Holds files ((Sorting.sort (fun first second => Text.before first.1 second.1) kept).map
        fun entry => (entry.1, value entry.2)) := by
  obtain ⟨files, shelf⟩ := exists_shelf (keeps.leads_part there isPart) stocks.lists
    fun file found isFound _ => by
      obtain ⟨entry, member, _⟩ := stocks.only file found isFound
      exact ⟨(stored _ member).plain, keeps.bare there file⟩
  exact ⟨files, shelf, stocks.holds shelf stored value reads⟩

variable (blank : ∀ layout ∈ layouts, layout.Blank)
include blank

/-- The files of the documents of a collection, each of which is read settled. -/
theorem shelf_documents : ∃ files, Shelf view ([name] ++ ["docs"]) files
    ∧ documentForm.Holds files
      (drawer.sorted.map fun entry => (entry.1, Json.settled .document entry.2)) := by
  have orderly := keeps.drawerOrderly there
  refine shelf_kept keeps there (.inl rfl) (Json.settled .document)
    (stocks_kept keeps there orderly.documentsDistinct fun layout file =>
      drawer.node?_document file layout) (fun entry member => ?_)
    fun entry member layout isLayout => ?_
  · obtain ⟨_, id, _, isKey⟩ := orderly.of_mem_documents member
    exact isKey ▸ Files.stored_keyName id
  · obtain ⟨wellFormed, id, isId, _⟩ := orderly.of_mem_documents member
    have settledId := (documentId?_settled wellFormed).trans isId
    rw [Form.in?, Json.parse?_canonicalText (blank layout isLayout) wellFormed .document,
      Option.bind_some]
    exact if_pos (Option.isSome_of_eq_some settledId)

/-- The files of the constraints of a collection, each of which is read as it was written. -/
theorem shelf_checks : ∃ files, Shelf view ([name] ++ ["constraints"]) files
    ∧ checkForm.Holds files (drawer.sortedChecks.map fun entry =>
      (entry.1, (⟨entry.2.name, entry.2⟩ : StoredCheck .json))) := by
  have orderly := keeps.drawerOrderly there
  refine shelf_kept keeps there (.inr rfl) (fun check => (⟨check.name, check⟩ : StoredCheck .json))
    (stocks_kept keeps there orderly.checksDistinct fun layout file =>
      drawer.node?_check file layout) (fun entry member => ?_)
    fun entry member layout isLayout => ?_
  · rw [orderly.of_mem_checks member]
    exact Files.stored_keyName _
  · rw [Form.in?, Drawer.checkText, Json.parse?_canonicalText (blank layout isLayout)
      (wellFormed_storedCheck _), Option.bind_some]
    exact storedCheck?_settled .alphabetical _

end

/-! ## Operations -/

section

variable {store : FileStore} {origin : Disk} {home : Place} {heads : Set String}
  {layouts : Set Json.Layout} {cabinet : Cabinet} {locked view : Branch}
  (vacant : Vacant origin store.root home) (keeps : Keeps layouts cabinet locked view)
  (blank : ∀ layout ∈ layouts, layout.Blank) {name : String} (own : name ∈ heads)
  (named : Named name)
include vacant keeps blank own named

/-- The documents that contain a query, in the order of their files. -/
theorem serves_scan {query : Json} :
    Serves store origin home heads layouts locked cabinet view (.scan name query) := by
  simp only [Serves, perform, Cabinet.perform, Cabinet.documents]
  cases there : cabinet.drawer? name with
  | none =>
      rw [scan, documentsPath, partPath_eq vacant.resolved named]
      exact .bind_same (.directoryIdentity_absent vacant
        (keeps.absent named.ne_lockDirectory there ["docs"]) own named.plain_documents
        (show 2 ≤ 3 by decide)) (.pure [] keeps)
  | some drawer =>
      obtain ⟨files, shelf, holds⟩ := shelf_documents keeps there blank
      have scans : Secures (Advances layouts) origin home heads view (store.scan name _) _ _ :=
        scan_shelf vacant own named shelf fun document => Json.contains document query
      rw [holds.tellAll, List.map_map] at scans
      exact scans.mono fun _ same => same ▸ keeps

/-- The constraints of a collection, in the order of their files. -/
theorem serves_checks :
    Serves store origin home heads layouts locked cabinet view (.checks name) := by
  simp only [Serves, perform, Cabinet.perform, Cabinet.checks]
  cases there : cabinet.drawer? name with
  | none =>
      rw [FileStore.checks, checksPath, partPath_eq vacant.resolved named]
      exact .bind_same (listFiles_missing vacant keeps own named there (.inr rfl)) (.pure [] keeps)
  | some drawer =>
      obtain ⟨files, shelf, holds⟩ := shelf_checks keeps there blank
      have lists : Secures (Advances layouts) origin home heads view (store.checks name) _ _ :=
        checks_shelf vacant own named shelf
      rw [holds.tellAll, List.map_map] at lists
      exact lists.mono fun _ same => same ▸ keeps

omit vacant blank own named in
/-- A collection without some of its files keeps the other documents. -/
theorem keeps_withoutFiles {drawer : Drawer} (there : cabinet.drawer? name = some drawer)
    (gone : List String) :
    Keeps layouts (cabinet.putDrawer name (drawer.withoutFiles gone)) locked
      (withoutFiles view ([name] ++ ["docs"]) gone) := by
  induction gone generalizing cabinet drawer view with
  | nil =>
      rw [drawer.withoutFiles_nil, withoutFiles_nil]
      exact keeps.putBack there
  | cons file gone ih =>
      obtain ⟨layout, member⟩ := keeps.exists_layout
      have changed : Keeps layouts (cabinet.putDrawer name (drawer.withoutFiles [file])) locked
          (Function.update view [name, "docs", file] none) :=
        keeps.change there ((keeps.drawerOrderly there).withoutFiles [file])
          (drawer.node?_withoutFile file) ⟨layout, member, rfl⟩
      rw [drawer.withoutFiles_cons, withoutFiles_cons,
        ← cabinet.putDrawer_putDrawer name (drawer.withoutFiles [file])]
      exact ih changed (by rw [Cabinet.drawer?_putDrawer, if_pos rfl])

omit named in
/-- The documents that contain a query are removed, up to a limit. -/
theorem serves_deleteMatching {query : Json} {limit : Storage.Limit}
    (fits : Storage.Op.Fits (.deleteMatching name query limit)) :
    Serves store origin home heads layouts locked cabinet view
      (.deleteMatching name query limit) := by
  obtain ⟨named, comparable⟩ := fits
  simp only [Serves, perform, Cabinet.perform]
  cases there : cabinet.drawer? name with
  | none =>
      rw [deleteMatching, documentsPath, partPath_eq vacant.resolved named]
      exact .bind_same (listFiles_missing vacant keeps own named there (.inl rfl)) (.pure [] keeps)
  | some drawer =>
      obtain ⟨files, shelf, holds⟩ := shelf_documents keeps there blank
      have deletes : Secures (Advances layouts) origin home heads view
          (store.deleteMatching name _ limit) _ _ :=
        deleteMatching_shelf vacant own named shelf (fun _ _ _ => .of_removal rfl)
          (fun document => Json.contains document query) comparable
      have wanted : ((drawer.sorted.map fun entry => (entry.1, Json.settled .document entry.2)).filter
            fun entry => Json.contains entry.2 query)
          = (drawer.sorted.filter fun entry => Json.contains entry.2 query).map
            fun entry => (entry.1, Json.settled .document entry.2) := by
        have orderly := keeps.drawerOrderly there
        rw [List.filter_map]
        refine congrArg (List.map _) (List.filter_congr fun entry member => ?_)
        obtain ⟨wellFormed, _⟩ := orderly.of_mem_documents (drawer.sorted_perm.mem_iff.mp member)
        exact Json.contains_settled .document wellFormed query
      rw [holds.removal, holds.wantedFiles, wanted, limit.start_map, List.map_map, List.map_map]
        at deletes
      exact deletes.mono fun _ same => same ▸ keeps_withoutFiles keeps there _

end

end DocStore.FileStore
