import DocStore.Proofs.Files.Collections
/-!
# What is seen below a root

Hidden entries are no part of a storage: whoever reads passes over them.  So of a branch only what
lies under names that are not hidden is seen (`Seen`), and two branches may differ in everything
else (`SeenAlike`).  A branch is tidy when all that is seen are collections and their files,
whatever these hold and whatever is hidden (`Tidy`); it is seen from what has changed that it stays
so (`Tidy.update`, `Tidy.of_collection`).

Below the root of a cabinet everything is tidy (`Keeps.tidy`), and no fresh name is in use
(`Keeps.unused`).
-/

set_option autoImplicit false

namespace DocStore

open Disk (Branch Entry Plain)
open Files (Named Stored isHidden temporaryName)
open Host (Machine marked)

/-- Names under which there is something to be seen: none of them is hidden, and they lead no deeper
than to the files of a collection. -/
structure Seen (names : List String) : Prop where
  shallow : names.length ≤ Disk.maxDepth
  visible : ∀ name ∈ names, isHidden name = false

theorem isPart.seen {part : String} (isPart : isPart part) : isHidden part = false := by
  rcases isPart with rfl | rfl <;> decide

theorem seen_collection {name : String} (seen : isHidden name = false) : Seen [name] :=
  ⟨show 1 ≤ 3 by decide, by simpa using seen⟩

theorem seen_part {name part : String} (named : Named name) (isPart : isPart part) :
    Seen [name, part] :=
  ⟨show 2 ≤ 3 by decide, by simp [named.seen, isPart.seen]⟩

theorem seen_file {name part file : String} (named : Named name) (isPart : isPart part)
    (seen : isHidden file = false) : Seen [name, part, file] :=
  ⟨show 3 ≤ 3 by decide, by simp [named.seen, isPart.seen, seen]⟩

theorem not_seen_of_hidden {names : List String} {name : String} (member : name ∈ names)
    (hidden : isHidden name = true) : ¬ Seen names := fun seen => by
  rw [seen.visible name member] at hidden
  cases hidden

theorem Seen.of_prefix {front names : List String} (isFront : front <+: names) (seen : Seen names) :
    Seen front :=
  ⟨isFront.length_le.trans seen.shallow, fun name member => seen.visible name (isFront.subset member)⟩

/-- What lies below something that is not seen is not seen. -/
theorem not_seen_of_below {names other : List String} (unseen : ¬ Seen names)
    (isBelow : Disk.below names other = true) : ¬ Seen other := by
  obtain ⟨rest, rfl⟩ := Disk.below_iff.mp isBelow
  exact fun seen => unseen (seen.of_prefix (List.prefix_append _ _))

/-- Below a file nothing is seen. -/
theorem Seen.eq_of_below {names other : List String} (deep : names.length = Disk.maxDepth)
    (seen : Seen other) (isBelow : Disk.below names other = true) : other = names := by
  obtain ⟨rest, rfl⟩ := Disk.below_iff.mp isBelow
  have size := seen.shallow
  rw [List.length_append, deep] at size
  rw [List.length_eq_zero_iff.mp (show rest.length = 0 by omega), List.append_nil]

/-! ## Branches in which the same is seen -/

/-- Two branches in which the same is seen. -/
def SeenAlike (first second : Branch) : Prop := ∀ names, Seen names → first names = second names

namespace SeenAlike

variable {first second third branch : Branch} {names : List String}

theorem refl (branch : Branch) : SeenAlike branch branch := fun _ _ => rfl

theorem symm (alike : SeenAlike first second) : SeenAlike second first :=
  fun names seen => (alike names seen).symm

theorem trans (alike : SeenAlike first second) (alike' : SeenAlike second third) :
    SeenAlike first third := fun names seen => (alike names seen).trans (alike' names seen)

/-- Where the same is seen the same directories lead to what is seen. -/
theorem leads (alike : SeenAlike first second) (seen : Seen names) (leads : second.Leads names) :
    first.Leads names := fun front isFront nonempty => by
  rw [alike front (seen.of_prefix isFront)]
  exact leads front isFront nonempty

theorem absent (alike : SeenAlike first second) (seen : Seen names) (absent : second.Absent names) :
    first.Absent names := by
  obtain ⟨front, missing, rest, rfl, leads, isMissing⟩ := absent
  have isFront : front ++ [missing] <+: front ++ missing :: rest :=
    ⟨rest, by rw [List.append_assoc]; rfl⟩
  refine ⟨front, missing, rest, rfl, alike.leads (seen.of_prefix (List.prefix_append _ _)) leads, ?_⟩
  rw [alike _ (seen.of_prefix isFront), isMissing]

/-- What changes only at or below something that is not seen is not seen to change. -/
theorem of_unseen (unseen : ¬ Seen names)
    (same : ∀ other, Disk.below names other = false → first other = second other) :
    SeenAlike first second := fun other seen => same other <| by
  cases isBelow : Disk.below names other with
  | false => rfl
  | true => exact absurd seen (not_seen_of_below unseen isBelow)

variable (branch) in
theorem update (unseen : ¬ Seen names) (found : Option Entry) :
    SeenAlike (Function.update branch names found) branch := fun other seen =>
  Function.update_of_ne (by rintro rfl; exact unseen seen) ..

theorem without (unseen : ¬ Seen names) : SeenAlike (branch.without names) branch :=
  of_unseen unseen fun _ outside => if_neg (by rw [outside]; decide)

/-- The same change at one place is seen alike. -/
theorem change (alike : SeenAlike first second) (names : List String) (found : Option Entry) :
    SeenAlike (Function.update first names found) (Function.update second names found) :=
  fun other seen => by rw [Function.update_apply, Function.update_apply, alike other seen]

variable (branch) in
/-- Of a file that is removed it is seen that it is gone. -/
theorem without_file (deep : names.length = Disk.maxDepth) :
    SeenAlike (branch.without names) (Function.update branch names none) := fun other seen => by
  rw [Branch.without, Function.update_apply]
  by_cases isBelow : Disk.below names other = true
  · rw [if_pos isBelow, if_pos (seen.eq_of_below deep isBelow)]
  · rw [if_neg isBelow, if_neg fun here => isBelow (Disk.below_iff.mpr ⟨[], by simp [here]⟩)]

/-- Of a file that comes from somewhere hidden to a place it is seen that it is there. -/
theorem relocated {source : List String} (unseen : ¬ Seen source) {found : Option Entry}
    (isSource : branch source = found) (deep : names.length = Disk.maxDepth) :
    SeenAlike (branch.relocated source names) (Function.update branch names found) :=
  fun other seen => by
    rw [← isSource, Branch.relocated, Function.update_apply,
      if_neg (c := Disk.below source other = true) fun isBelow =>
        not_seen_of_below unseen isBelow seen]
    by_cases isBelow : Disk.below names other = true
    · obtain rfl := seen.eq_of_below deep isBelow
      rw [if_pos isBelow, if_pos rfl, List.drop_length, List.append_nil]
    · rw [if_neg isBelow, if_neg fun here => isBelow (Disk.below_iff.mpr ⟨[], by simp [here]⟩)]

end SeenAlike

/-! ## Tidy branches -/

/-- What is seen are collections, each a directory with its two directories, and in these files with
the names of stored files. -/
structure Tidy (branch : Branch) : Prop where
  collection : ∀ name, isHidden name = false →
    branch [name] = none ∨ Named name ∧ ∃ identity, branch [name] = some (.directory identity)
  part : ∀ name part, Named name → branch [name] ≠ none → isPart part →
    ∃ identity, branch [name, part] = some (.directory identity)
  file : ∀ name part file, Named name → branch [name] ≠ none → isPart part →
    isHidden file = false → branch [name, part, file] = none
      ∨ Stored file ∧ ∃ identity content, branch [name, part, file] = some (.file identity content)

/-- Where nothing is seen everything is tidy. -/
theorem tidy_nothing : Tidy fun _ => none :=
  ⟨fun _ _ => .inl rfl, fun _ _ _ there => absurd rfl there, fun _ _ _ _ there => absurd rfl there⟩

namespace Tidy

variable {branch branch' : Branch} {name : String}

theorem congr (tidy : Tidy branch) (alike : SeenAlike branch' branch) : Tidy branch' where
  collection name seen := by
    rw [alike _ (seen_collection seen)]
    exact tidy.collection name seen
  part name part named there isPart := by
    rw [alike _ (seen_collection named.seen)] at there
    rw [alike _ (seen_part named isPart)]
    exact tidy.part name part named there isPart
  file name part file named there isPart seen := by
    rw [alike _ (seen_collection named.seen)] at there
    rw [alike _ (seen_file named isPart seen)]
    exact tidy.file name part file named there isPart seen

/-- One file of a collection comes, goes or changes. -/
theorem update (tidy : Tidy branch) {part file : String} (stored : Stored file)
    {found : Option Entry}
    (isFile : found = none ∨ ∃ identity content, found = some (.file identity content)) :
    Tidy (Function.update branch [name, part, file] found) where
  collection other seen := by
    rw [Function.update_of_ne (by simp)]
    exact tidy.collection other seen
  part other part named there isPart := by
    rw [Function.update_of_ne (by simp)] at there
    rw [Function.update_of_ne (by simp)]
    exact tidy.part other part named there isPart
  file other part' file' named there isPart seen := by
    rw [Function.update_of_ne (by simp)] at there
    rw [Function.update_apply]
    split
    next here =>
      obtain ⟨-, -, rfl⟩ : other = name ∧ part' = part ∧ file' = file := by simpa using here
      exact isFile.imp id fun isFile => ⟨stored, isFile⟩
    next => exact tidy.file other part' file' named there isPart seen

/-- One collection comes, without files, or goes. -/
theorem of_collection (tidy : Tidy branch) (named : Named name)
    (same : ∀ other rest, Seen (other :: rest) → other ≠ name →
      branch' (other :: rest) = branch (other :: rest))
    (isCollection : branch' [name] = none
      ∨ (∃ identity, branch' [name] = some (.directory identity))
        ∧ ∀ part, isPart part → (∃ identity, branch' [name, part] = some (.directory identity))
          ∧ ∀ file, branch' [name, part, file] = none) : Tidy branch' where
  collection other seen := by
    by_cases here : other = name
    · subst here
      exact isCollection.imp id fun isCollection => ⟨named, isCollection.1⟩
    · rw [same _ _ (seen_collection seen) here]
      exact tidy.collection other seen
  part other part named' there isPart := by
    by_cases here : other = name
    · subst here
      exact ((isCollection.resolve_left there).2 part isPart).1
    · rw [same _ _ (seen_collection named'.seen) here] at there
      rw [same _ _ (seen_part named' isPart) here]
      exact tidy.part other part named' there isPart
  file other part file named' there isPart seen := by
    by_cases here : other = name
    · subst here
      exact .inl (((isCollection.resolve_left there).2 part isPart).2 file)
    · rw [same _ _ (seen_collection named'.seen) here] at there
      rw [same _ _ (seen_file named' isPart seen) here]
      exact tidy.file other part file named' there isPart seen

variable (tidy : Tidy branch)
include tidy

theorem directory (named : Named name) (there : branch [name] ≠ none) :
    ∃ identity, branch [name] = some (.directory identity) :=
  ((tidy.collection name named.seen).resolve_left there).2

theorem leads_collection (named : Named name) (there : branch [name] ≠ none) :
    branch.Leads [name] := by
  obtain ⟨identity, isDirectory⟩ := tidy.directory named there
  exact (Branch.leads_nil branch).concat isDirectory

theorem leads_part (named : Named name) (there : branch [name] ≠ none) {part : String}
    (isPart : isPart part) : branch.Leads [name, part] := by
  obtain ⟨identity, isDirectory⟩ := tidy.part name part named there isPart
  exact (tidy.leads_collection named there).concat isDirectory

end Tidy

/-- Where a collection is missing nothing of it is found. -/
theorem absent_of_missing {branch : Branch} {name : String} (missing : branch [name] = none)
    (rest : List String) : branch.Absent (name :: rest) :=
  ⟨[], name, rest, rfl, Branch.leads_nil branch, missing⟩

/-! ## Names that are not in use -/

/-- Nothing lies under names that are made of a fresh name: neither a collection that is prepared or
moved away, nor a file that is being written. -/
structure Unused (branch : Branch) (number : Nat) : Prop where
  marked : ∀ head ∈ marked number, ∀ rest, branch (head :: rest) = none
  temporary : ∀ name part file, Named name → isPart part → Stored file → ∀ rest,
    branch (name :: part :: temporaryName file (Machine.freshName number) :: rest) = none

theorem unused_nothing (number : Nat) : Unused (fun _ => none) number :=
  ⟨fun _ _ _ => rfl, fun _ _ _ _ _ _ _ => rfl⟩

namespace Keeps

variable {layouts : Set Json.Layout} {cabinet : Cabinet} {locked branch : Branch}
  (keeps : Keeps layouts cabinet locked branch)
include keeps

/-- **What keeps a cabinet is tidy.** -/
theorem tidy : Tidy branch where
  collection name seen := by
    have noLock : name ≠ lockDirectory := by
      rintro rfl
      cases seen
    cases there : cabinet.drawer? name with
    | none => exact .inl (keeps.nothing_of_missing noLock there [])
    | some drawer => exact .inr ⟨keeps.named there, keeps.collection_directory there⟩
  part name part named there isPart := by
    cases found : cabinet.drawer? name with
    | none => exact absurd (keeps.nothing_of_missing named.ne_lockDirectory found []) there
    | some drawer => exact keeps.part_directory found isPart
  file name part file named there isPart seen := by
    obtain ⟨layout, _, node⟩ := keeps.node_eq [part, file] named.ne_lockDirectory
    cases found : cabinet.drawer? name with
    | none => exact absurd (keeps.nothing_of_missing named.ne_lockDirectory found []) there
    | some drawer =>
        have orderly := keeps.drawerOrderly found
        rw [node?_eq found] at node
        -- a file that is there has the name of its key
        have isFile {content : String} (stored : Stored file)
            (same : (branch [name, part, file]).map Entry.node = some (.file content)) :
            Stored file ∧ ∃ identity content,
              branch [name, part, file] = some (.file identity content) := by
          obtain ⟨entry, isEntry, isNode⟩ := Option.map_eq_some_iff.mp same
          cases entry with
          | file identity content => exact ⟨stored, identity, content, isEntry⟩
          | directory _ | link _ => cases isNode
        rcases isPart with rfl | rfl
        · rw [drawer.node?_document] at node
          cases isThere : drawer.documents.lookup file with
          | none => exact .inl (Option.map_eq_none_iff.mp (by rw [node, isThere]; rfl))
          | some document =>
              obtain ⟨_, id, _, rfl⟩ := orderly.documents _ _ isThere
              exact .inr (isFile (Files.stored_keyName id) (by rw [node, isThere]; rfl))
        · rw [drawer.node?_check] at node
          cases isThere : drawer.checks.lookup file with
          | none => exact .inl (Option.map_eq_none_iff.mp (by rw [node, isThere]; rfl))
          | some check =>
              obtain rfl := orderly.checks _ _ isThere
              exact .inr (isFile (Files.stored_keyName check.name) (by rw [node, isThere]; rfl))

/-- A cabinet uses no fresh name. -/
theorem unused (number : Nat) : Unused branch number where
  marked _ isMarked rest := keeps.nothing_of_marked isMarked rest
  temporary name part file named isPart stored rest := by
    cases found : cabinet.drawer? name with
    | none => exact keeps.nothing_of_missing named.ne_lockDirectory found _
    | some drawer =>
        cases rest with
        | nil => exact keeps.free_of_hidden found (Files.isHidden_temporaryName _ _)
        | cons next rest => exact keeps.bare found _ (next :: rest) (by simp)

end Keeps

end DocStore
