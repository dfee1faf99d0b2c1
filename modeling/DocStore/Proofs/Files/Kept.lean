import DocStore.Proofs.Files.Atomic
import DocStore.Proofs.Storage.Cabinet
/-!
# A cabinet on a disk

`Keeps` says that what lies below a root is a cabinet and nothing more, next to whatever there is
about locks; each file is laid out in one of the layouts of those who write there.  So every path
below the root is settled by the cabinet: it leads to a directory or a file of the cabinet, or
nowhere.  `Keeps.change` follows a change of one file, and `Keeps.site` finds the place of a file.
-/

set_option autoImplicit false

namespace DocStore

open Disk (Branch Entry Plain)
open Files (Named Stored isHidden keyName temporaryName)
open Host (Machine Site)

/-- What lies below a root is a cabinet, in some layouts, next to what there is about locks. -/
structure Keeps (layouts : Set Json.Layout) (cabinet : Cabinet) (locked branch : Branch) : Prop where
  orderly : cabinet.Orderly
  kept : ∀ names, names.head? ≠ some lockDirectory →
    ∃ layout ∈ layouts, (branch names).map Entry.node = cabinet.node? layout names
  locked : ∀ names, branch (lockDirectory :: names) = locked names

/-- The directories of a collection. -/
def isPart (part : String) : Prop := part = "docs" ∨ part = "constraints"

theorem isPart.stored {part : String} (isPart : isPart part) : Plain part := by
  rcases isPart with rfl | rfl <;> decide

theorem Files.Named.ne_lockDirectory {name : String} (named : Named name) :
    name ≠ lockDirectory := by
  rintro rfl
  exact absurd named.seen (by decide)

/-- The names that lead to a file of a collection. -/
theorem Files.Named.plain_names {name : String} (named : Named name) {part : String}
    (isPart : isPart part) {last : String} (plain : Plain last) :
    ∀ other ∈ [name, part] ++ [last], Plain other := by
  intro other member
  simp only [List.cons_append, List.nil_append, List.mem_cons, List.not_mem_nil, or_false] at member
  rcases member with rfl | rfl | rfl
  · exact named.plain
  · exact isPart.stored
  · exact plain

/-- The names that lead to the documents of a collection. -/
theorem Files.Named.plain_documents {name : String} (named : Named name) :
    ∀ other ∈ [name] ++ ["docs"], Plain other := fun other member =>
  named.plain_names (.inl rfl) (isPart.stored (.inl rfl)) other (List.mem_append_left _ member)

/-- An empty root is a cabinet without collections. -/
theorem keeps_empty {layouts : Set Json.Layout} {layout : Json.Layout} (member : layout ∈ layouts) :
    Keeps layouts Memory.empty (fun _ => none) fun _ => none where
  orderly := Cabinet.slotted_empty
  kept names _ := ⟨layout, member, by cases names <;> rfl⟩
  locked _ := rfl

namespace Keeps

variable {layouts : Set Json.Layout} {cabinet : Cabinet} {locked branch : Branch}
  (keeps : Keeps layouts cabinet locked branch)
include keeps

theorem exists_layout : ∃ layout, layout ∈ layouts := by
  obtain ⟨layout, member, _⟩ := keeps.kept [] (by simp)
  exact ⟨layout, member⟩

/-! ## Where paths lead -/

section

variable {name : String} {rest : List String}

variable (rest) in
theorem node_eq (noLock : name ≠ lockDirectory) : ∃ layout ∈ layouts,
    (branch (name :: rest)).map Entry.node = cabinet.node? layout (name :: rest) :=
  keeps.kept _ fun same => noLock (Option.some.inj same)

theorem nothing (noLock : name ≠ lockDirectory)
    (noNode : ∀ layout, cabinet.node? layout (name :: rest) = none) :
    branch (name :: rest) = none := by
  obtain ⟨layout, _, same⟩ := keeps.node_eq rest noLock
  rw [noNode] at same
  exact Option.map_eq_none_iff.mp same

theorem directory (noLock : name ≠ lockDirectory)
    (isDirectory : ∀ layout, cabinet.node? layout (name :: rest) = some .directory) :
    ∃ identity, branch (name :: rest) = some (.directory identity) := by
  obtain ⟨layout, _, same⟩ := keeps.node_eq rest noLock
  rw [isDirectory, Option.map_eq_some_iff] at same
  obtain ⟨entry, found, isNode⟩ := same
  cases entry with
  | directory identity => exact ⟨identity, found⟩
  | file _ _ | link _ => cases isNode

theorem file (noLock : name ≠ lockDirectory) {text : Json.Layout → String}
    (isFile : ∀ layout, cabinet.node? layout (name :: rest) = some (.file (text layout))) :
    ∃ layout ∈ layouts, ∃ identity, branch (name :: rest) = some (.file identity (text layout)) := by
  obtain ⟨layout, member, same⟩ := keeps.node_eq rest noLock
  rw [isFile, Option.map_eq_some_iff] at same
  obtain ⟨entry, found, isNode⟩ := same
  cases entry with
  | file identity other =>
      cases isNode
      exact ⟨layout, member, identity, found⟩
  | directory _ | link _ => cases isNode

end

section

variable {name : String}

/-- Nothing lies where no collection is. -/
theorem nothing_of_missing (noLock : name ≠ lockDirectory) (missing : cabinet.drawer? name = none)
    (rest : List String) : branch (name :: rest) = none :=
  keeps.nothing noLock fun layout => by rw [Cabinet.node?, missing, Option.bind_none]

theorem missing_of_hidden (hidden : isHidden name = true) : cabinet.drawer? name = none := by
  cases found : cabinet.drawer? name with
  | none => rfl
  | some drawer => exact absurd (keeps.orderly.each _ _ found).1.seen (by rw [hidden]; decide)

theorem absent (noLock : name ≠ lockDirectory) (missing : cabinet.drawer? name = none)
    (rest : List String) : branch.Absent (name :: rest) :=
  ⟨[], name, rest, rfl, Branch.leads_nil branch, keeps.nothing_of_missing noLock missing []⟩

variable {drawer : Drawer} (there : cabinet.drawer? name = some drawer)
include there

theorem named : Named name := (keeps.orderly.each _ _ there).1

theorem drawerOrderly : drawer.Orderly := (keeps.orderly.each _ _ there).2

omit keeps in
theorem node?_eq (layout : Json.Layout) (rest : List String) :
    cabinet.node? layout (name :: rest) = drawer.node? layout rest := by
  rw [Cabinet.node?, there, Option.bind_some]

theorem collection_directory : ∃ identity, branch [name] = some (.directory identity) :=
  keeps.directory (keeps.named there).ne_lockDirectory fun layout => node?_eq there layout []

theorem leads_collection : branch.Leads [name] := by
  obtain ⟨identity, isDirectory⟩ := keeps.collection_directory there
  exact (Branch.leads_nil branch).concat isDirectory

variable {part : String} (isPart : isPart part)
include isPart

theorem part_directory : ∃ identity, branch [name, part] = some (.directory identity) :=
  keeps.directory (keeps.named there).ne_lockDirectory fun layout =>
    (node?_eq there layout [part]).trans (if_pos isPart)

theorem leads_part : branch.Leads [name, part] := by
  obtain ⟨identity, isDirectory⟩ := keeps.part_directory there isPart
  exact (keeps.leads_collection there).concat isDirectory

omit isPart in
/-- Nothing lies deeper than the files of a collection. -/
theorem bare (last : String) : branch.Bare ([name, part] ++ [last]) := by
  intro rest nonempty
  obtain ⟨next, rest, rfl⟩ := List.exists_cons_of_ne_nil nonempty
  exact keeps.nothing (keeps.named there).ne_lockDirectory fun layout =>
    (node?_eq there layout (part :: last :: next :: rest)).trans rfl

omit isPart in
/-- A name that no stored file has is free. -/
theorem free_of_hidden {last : String} (hidden : isHidden last = true) :
    branch ([name, part] ++ [last]) = none := by
  have orderly := keeps.drawerOrderly there
  have unseen {key : String} (isKey : last = keyName key) : False := by
    have seen := (Files.stored_keyName key).seen
    rw [← isKey, hidden] at seen
    exact absurd seen (by decide)
  refine keeps.nothing (keeps.named there).ne_lockDirectory fun layout =>
    (node?_eq there layout (part :: [last])).trans ?_
  rw [Drawer.node?]
  split
  · cases found : drawer.documents.lookup last with
    | none => rfl
    | some document =>
        obtain ⟨_, _, _, isKey⟩ := orderly.documents _ _ found
        exact (unseen isKey).elim
  · split
    · cases found : drawer.checks.lookup last with
      | none => rfl
      | some check => exact (unseen (orderly.checks _ _ found)).elim
    · rfl

/-- The place of a file of a collection. -/
theorem site {file : String} (stored : Stored file) : Site branch [name, part] file where
  leads := keeps.leads_part there isPart
  deep := rfl
  plain := (keeps.named there).plain_names isPart stored.plain
  bare := keeps.bare there file
  plainBeside := stored.plain_temporary
  free _ := keeps.free_of_hidden there (Files.isHidden_temporaryName _ _)
  bareBeside _ := keeps.bare there _

end

/-! ## Changes -/

/-- A collection that is put back changes nothing. -/
theorem putBack {name : String} {drawer : Drawer} (there : cabinet.drawer? name = some drawer) :
    Keeps layouts (cabinet.putDrawer name drawer) locked branch where
  orderly := keeps.orderly.putDrawer (keeps.named there) (keeps.drawerOrderly there)
  kept names noLock := by
    obtain ⟨layout, member, same⟩ := keeps.kept names noLock
    refine ⟨layout, member, same.trans ?_⟩
    cases names with
    | nil => rfl
    | cons other rest =>
        rw [Cabinet.node?_putDrawer]
        split
        next same => rw [same, node?_eq there]
        next => rfl
  locked := keeps.locked

/-- A change of one place of a collection. -/
theorem change {name : String} {drawer drawer' : Drawer} {names : List String}
    {found : Option Entry} {node : Json.Layout → Option Node}
    (there : cabinet.drawer? name = some drawer) (orderly : drawer'.Orderly)
    (changed : ∀ layout, drawer'.node? layout
      = Function.update (drawer.node? layout) names (node layout))
    (isNode : ∃ layout ∈ layouts, found.map Entry.node = node layout) :
    Keeps layouts (cabinet.putDrawer name drawer') locked
      (Function.update branch (name :: names) found) where
  orderly := keeps.orderly.putDrawer (keeps.named there) orderly
  kept other noLock := by
    by_cases here : other = name :: names
    · obtain ⟨layout, member, same⟩ := isNode
      refine ⟨layout, member, ?_⟩
      rw [here, Function.update_self, Cabinet.node?_putDrawer, if_pos rfl, changed,
        Function.update_self, same]
    · obtain ⟨layout, member, same⟩ := keeps.kept other noLock
      refine ⟨layout, member, ?_⟩
      rw [Function.update_of_ne here, same]
      cases other with
      | nil => rfl
      | cons other rest =>
          rw [Cabinet.node?_putDrawer]
          split
          next sameName =>
            subst sameName
            rw [changed, Function.update_of_ne (by simpa using here), node?_eq there]
          next => rfl
  locked other := by
    rw [Function.update_of_ne, keeps.locked]
    exact fun same => (keeps.named there).ne_lockDirectory (List.cons.inj same).1.symm

end Keeps

end DocStore
