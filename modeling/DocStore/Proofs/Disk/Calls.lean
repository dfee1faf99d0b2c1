import DocStore.Proofs.Disk.Below
/-!
# Calls below a directory

What each call does at a path below a root, told from the branch that lies there.  Calls on
something absent fail because there is no entry, and leave the disk as it is.
-/

set_option autoImplicit false

namespace DocStore.Disk

section

variable {origin : Disk} {root : Path} {home : Place} (vacant : Vacant origin root home)
  {branch : Branch} {disk : Disk} (shows : Shows origin home branch disk)
include vacant shows

/-! ## Something absent -/

section

variable {names : List String} (absent : branch.Absent names)
  (plain : ∀ name ∈ names, Plain name) (few : names.length ≤ maxDepth)
include absent plain few

theorem Shows.status_absent : disk.status (root.trimmed ++ names) = .error .noEntry := by
  unfold status
  rcases shows.locate_absent vacant absent plain few with missing | ⟨place, missing⟩ <;>
    rw [missing] <;> rfl

theorem Shows.read_absent : disk.read (root.trimmed ++ names) = .error .noEntry := by
  unfold read
  rcases shows.locate_absent vacant absent plain few with missing | ⟨place, missing⟩ <;>
    rw [missing] <;> rfl

theorem Shows.list_absent : disk.list (root.trimmed ++ names) = .error .noEntry := by
  unfold list
  rcases shows.locate_absent vacant absent plain few with missing | ⟨place, missing⟩ <;>
    rw [missing] <;> rfl

theorem Shows.unlink_absent : disk.unlink (root.trimmed ++ names) = .error .noEntry := by
  unfold unlink
  rcases shows.locateEntry_absent vacant absent plain few with missing | ⟨place, missing⟩ <;>
    rw [missing] <;> rfl

theorem Shows.rename_absent {target : Path} {found : Target}
    (located : disk.locateEntry target = .ok found) :
    disk.rename (root.trimmed ++ names) target = .error .noEntry := by
  unfold rename
  rcases shows.locateEntry_absent vacant absent plain few with missing | ⟨place, missing⟩ <;>
    rw [missing, located] <;> rfl

end

/-! ## The root -/

theorem Shows.locate_root :
    ∃ identity, disk.locate root = .ok ⟨home, some (.directory identity), false⟩ :=
  vacant.standing.locate_self (shows.extended vacant)

theorem Shows.status_root : ∃ identity, disk.status root = .ok ⟨true, identity⟩ :=
  vacant.standing.status_self (shows.extended vacant)

/-- What is listed of a directory below which a branch lies. -/
def Branch.Lists (branch : Branch) (names : List String) (listed : List (String × EntryKind)) :
    Prop :=
  (listed.map Prod.fst).Nodup ∧ ∀ name kind, (name, kind) ∈ listed
    ↔ ∃ entry, branch (names ++ [name]) = some entry ∧ entry.kind = kind

omit vacant shows in
/-- The entries of one kind in a listing. -/
theorem Branch.Lists.mem_ofKind {names : List String} {listed : List (String × EntryKind)}
    (lists : branch.Lists names listed) (kind : EntryKind) (name : String) :
    name ∈ (listed.filter fun entry => entry.2 == kind).map Prod.fst
      ↔ ∃ entry, branch (names ++ [name]) = some entry ∧ entry.kind = kind := by
  rw [← lists.2, List.mem_map]
  constructor
  · rintro ⟨⟨name', kind'⟩, member, rfl⟩
    obtain ⟨isListed, isKind⟩ := List.mem_filter.mp member
    obtain rfl : kind' = kind := by simpa using isKind
    exact isListed
  · intro isListed
    exact ⟨(name, kind), List.mem_filter.mpr ⟨isListed, by simp⟩, rfl⟩

omit vacant shows in
theorem Branch.Lists.nodup_ofKind {names : List String} {listed : List (String × EntryKind)}
    (lists : branch.Lists names listed) (kind : EntryKind) :
    ((listed.filter fun entry => entry.2 == kind).map Prod.fst).Nodup :=
  lists.1.sublist (List.filter_sublist.map _)

omit vacant in
theorem Shows.lists (names : List String) :
    branch.Lists names
      ((disk.listing (home ++ names)).map fun found => (found.1, found.2.kind)) := by
  refine ⟨?_, fun name kind => ?_⟩
  · rw [Lookup.map_fst_map]
    exact nodup_listing shows.sound _
  · rw [List.mem_map]
    constructor
    · rintro ⟨⟨name', entry⟩, listed, same⟩
      obtain ⟨rfl, rfl⟩ := Prod.mk.inj same
      rw [mem_listing shows.sound, List.append_assoc, shows.shows _ (by simp)] at listed
      exact ⟨entry, listed, rfl⟩
    · rintro ⟨entry, found, rfl⟩
      refine ⟨(name, entry), ?_, rfl⟩
      rw [mem_listing shows.sound, List.append_assoc, shows.shows _ (by simp)]
      exact found

omit vacant in
/-- Nothing lies in a directory when nothing lies right below it. -/
theorem Shows.isVacant_iff (names : List String) :
    disk.isVacant (home ++ names) = true ↔ ∀ child, branch (names ++ [child]) = none := by
  have listed (child : String) (entry : Entry) :
      (child, entry) ∈ disk.listing (home ++ names) ↔ branch (names ++ [child]) = some entry := by
    rw [mem_listing shows.sound, List.append_assoc, shows.shows _ (by simp)]
  rw [isVacant, List.isEmpty_iff, List.eq_nil_iff_forall_not_mem]
  constructor
  · intro empty child
    exact Option.eq_none_iff_forall_ne_some.mpr fun entry found =>
      empty (child, entry) ((listed child entry).mpr found)
  · intro nothing found member
    exact absurd (nothing found.1) (by rw [(listed found.1 found.2).mp member]; simp)

theorem Shows.list_root : ∃ listed, disk.list root = .ok listed ∧ branch.Lists [] listed := by
  obtain ⟨identity, located⟩ := shows.locate_root vacant
  have lists := shows.lists []
  rw [List.append_nil] at lists
  exact ⟨_, by unfold list; rw [located]; rfl, lists⟩

/-- The root has an entry of its own, be it a directory or a link to one. -/
theorem Shows.makeDirectory_root : disk.makeDirectory root = .error .exists :=
  vacant.standing.makeDirectory_self (shows.extended vacant)

/-! ## Below directories -/

section

variable {names : List String} (leads : branch.Leads names) {last : String}
  (plain : ∀ name ∈ names ++ [last], Plain name) (few : names.length < maxDepth)
include leads plain few

section

variable {identity : Nat} (isDirectory : branch (names ++ [last]) = some (.directory identity))
include isDirectory

theorem Shows.locate_directory :
    disk.locate (root.trimmed ++ (names ++ [last]))
      = .ok ⟨home ++ (names ++ [last]), some (.directory identity), false⟩ := by
  rw [shows.locate vacant leads plain few (by rw [isDirectory]; simp), isDirectory]

theorem Shows.status_directory :
    disk.status (root.trimmed ++ (names ++ [last])) = .ok ⟨true, identity⟩ := by
  unfold status
  rw [shows.locate_directory vacant leads plain few isDirectory]
  rfl

theorem Shows.list_directory :
    ∃ listed, disk.list (root.trimmed ++ (names ++ [last])) = .ok listed
      ∧ branch.Lists (names ++ [last]) listed :=
  ⟨_, by
    unfold list
    rw [shows.locate_directory vacant leads plain few isDirectory]
    rfl, shows.lists _⟩

theorem Shows.makeDirectory_directory :
    disk.makeDirectory (root.trimmed ++ (names ++ [last])) = .error .exists := by
  unfold makeDirectory
  rw [shows.locateEntry vacant leads plain few, isDirectory]
  rfl

end

section

variable {identity : Nat} {content : String}
  (isFile : branch (names ++ [last]) = some (.file identity content))
include isFile

theorem Shows.read_file :
    disk.read (root.trimmed ++ (names ++ [last])) = .ok content := by
  unfold read
  rw [shows.locate vacant leads plain few (by rw [isFile]; simp), isFile]
  rfl

theorem Shows.unlink_file :
    disk.unlink (root.trimmed ++ (names ++ [last]))
      = .ok (disk.without (home ++ (names ++ [last]))) := by
  unfold unlink
  rw [shows.locateEntry vacant leads plain few, isFile]
  rfl

end

theorem Shows.openNew_there {entry : Entry} (there : branch (names ++ [last]) = some entry) :
    disk.openNew (root.trimmed ++ (names ++ [last])) = .error .exists := by
  unfold openNew
  rw [shows.locateEntry vacant leads plain few, there]
  rfl

section

variable (isFree : branch (names ++ [last]) = none)
include isFree

theorem Shows.makeDirectory_free :
    disk.makeDirectory (root.trimmed ++ (names ++ [last]))
      = .ok (disk.addDirectory (home ++ (names ++ [last]))) := by
  unfold makeDirectory
  rw [shows.locateEntry vacant leads plain few, isFree]
  rfl

theorem Shows.openNew_free :
    disk.openNew (root.trimmed ++ (names ++ [last]))
      = .ok (disk.nextIdentity, disk.addFile (home ++ (names ++ [last]))) := by
  unfold openNew
  rw [shows.locateEntry vacant leads plain few, isFree]
  rfl

theorem Shows.openEmpty_free :
    disk.openEmpty (root.trimmed ++ (names ++ [last]))
      = .ok (disk.nextIdentity, disk.addFile (home ++ (names ++ [last]))) := by
  unfold openEmpty
  rw [shows.locate vacant leads plain few (by rw [isFree]; simp), isFree]
  rfl

end

theorem Shows.removeTree_below :
    disk.removeTree (root.trimmed ++ (names ++ [last]))
      = .ok (disk.without (home ++ (names ++ [last]))) := by
  unfold removeTree
  rw [shows.locateEntry vacant leads plain few]
  rfl

/-- A file that is not yet where it is linked to gets a second entry there. -/
theorem Shows.addLink_below {source : Path} {place : Place} {entry : Entry}
    (located : disk.locateEntry source = .ok ⟨place, some entry, false⟩)
    (isFile : entry.isDirectory = false) :
    disk.addLink source (root.trimmed ++ (names ++ [last]))
      = if (branch (names ++ [last])).isSome then .error .exists
        else .ok (disk.put (home ++ (names ++ [last])) entry) := by
  unfold addLink
  rw [located]
  simp only [bind, Except.bind]
  rw [shows.locateEntry vacant leads plain few]
  cases branch (names ++ [last]) <;> simp [isFile]

/-- A file takes the place of another one. -/
theorem Shows.rename_file {source : Path} {sourcePlace : List String} {identity identity' : Nat}
    {content content' : String}
    (located : disk.locateEntry source = .ok ⟨home ++ sourcePlace, some (.file identity content), false⟩)
    (isFile : branch (names ++ [last]) = some (.file identity' content'))
    (differ : identity ≠ identity') (apart : sourcePlace ≠ names ++ [last]) :
    disk.rename source (root.trimmed ++ (names ++ [last]))
      = .ok (disk.relocate (home ++ sourcePlace) (home ++ (names ++ [last]))) := by
  unfold rename
  rw [located, shows.locateEntry vacant leads plain few, isFile]
  have otherEntry : Entry.file identity' content' ≠ .file identity content := fun same =>
    differ (Entry.file.inj same).1.symm
  simp [bind, Except.bind, renameEntry, apart, Entry.isDirectory, otherEntry]

/-- An entry takes a free place, a directory with all that lies below it. -/
theorem Shows.rename_free {source : Path} {sourcePlace : List String} {entry : Entry}
    (located : disk.locateEntry source = .ok ⟨home ++ sourcePlace, some entry, false⟩)
    (isFree : branch (names ++ [last]) = none)
    (apart : below sourcePlace (names ++ [last]) = false)
    (apart' : below (names ++ [last]) sourcePlace = false) :
    disk.rename source (root.trimmed ++ (names ++ [last]))
      = .ok (disk.relocate (home ++ sourcePlace) (home ++ (names ++ [last]))) := by
  unfold rename
  rw [located, shows.locateEntry vacant leads plain few, isFree]
  have otherPlace : sourcePlace ≠ names ++ [last] := fun same => by
    rw [same, below, List.isPrefixOf_iff_prefix.mpr (List.prefix_refl _)] at apart
    exact absurd apart (by decide)
  simp [bind, Except.bind, renameEntry, otherPlace, below_append_append, apart, apart']

/-- A directory takes the place of another one in which nothing lies, and of nothing else. -/
theorem Shows.rename_occupied {source : Path} {sourcePlace : List String} {identity : Nat}
    (located : disk.locateEntry source
      = .ok ⟨home ++ sourcePlace, some (.directory identity), false⟩)
    {entry : Entry} (there : branch (names ++ [last]) = some entry)
    (apart : below sourcePlace (names ++ [last]) = false)
    (apart' : below (names ++ [last]) sourcePlace = false) :
    disk.rename source (root.trimmed ++ (names ++ [last]))
      = if entry.isDirectory then
          if disk.isVacant (home ++ (names ++ [last])) then
            .ok (disk.relocate (home ++ sourcePlace) (home ++ (names ++ [last])))
          else .error .notEmpty
        else .error .notDirectory := by
  unfold rename
  rw [located, shows.locateEntry vacant leads plain few, there]
  have otherPlace : sourcePlace ≠ names ++ [last] := by
    intro same
    rw [same, below, List.isPrefixOf_iff_prefix.mpr (List.prefix_refl _)] at apart
    exact absurd apart (by decide)
  cases entry <;>
    simp [bind, Except.bind, renameEntry, otherPlace, below_append_append, apart, apart',
      Entry.isDirectory]

end

end

/-! ## Directories and all above them -/

section

variable {disk : Disk} {path : Path} (pending : Bool)

theorem ensureAll_reverse (disk : Disk) (front : Path) (name : String) :
    disk.ensureAll pending (front ++ [name]).reverse
      = match disk.makeDirectory (front ++ [name]) with
        | .error .noEntry =>
            match disk.ensureAll true front.reverse with
            | (none, disk) => disk.ensureDirectory (front ++ [name]) pending
            | stopped => stopped
        | _ => disk.ensureDirectory (front ++ [name]) pending := by
  rewrite [List.reverse_append, List.reverse_singleton, List.singleton_append, ensureAll,
    List.reverse_cons, List.reverse_reverse]
  rfl

theorem ensureDirectory_new {disk' : Disk} (makes : disk.makeDirectory path = .ok disk') :
    disk.ensureDirectory path pending = (none, disk') := by
  rw [ensureDirectory, makes]

theorem ensureDirectory_there (there : disk.makeDirectory path = .error .exists) {identity : Nat}
    (isDirectory : disk.status path = .ok ⟨true, identity⟩) :
    disk.ensureDirectory path pending = (none, disk) := by
  rw [ensureDirectory, there]
  simp [obstacle?, isDirectory]

theorem ensureAll_new (nonempty : path ≠ []) {disk' : Disk}
    (makes : disk.makeDirectory path = .ok disk') :
    disk.ensureAll pending path.reverse = (none, disk') := by
  obtain ⟨front, name, rfl⟩ := (List.eq_nil_or_concat' path).resolve_left nonempty
  rw [ensureAll_reverse, makes]
  exact ensureDirectory_new pending makes

theorem ensureAll_there (nonempty : path ≠ [])
    (there : disk.makeDirectory path = .error .exists) {identity : Nat}
    (isDirectory : disk.status path = .ok ⟨true, identity⟩) :
    disk.ensureAll pending path.reverse = (none, disk) := by
  obtain ⟨front, name, rfl⟩ := (List.eq_nil_or_concat' path).resolve_left nonempty
  rw [ensureAll_reverse, there]
  exact ensureDirectory_there pending there isDirectory

theorem ensureAll_parent {front : Path} {name : String} {middle disk' : Disk}
    (missing : disk.makeDirectory (front ++ [name]) = .error .noEntry)
    (above : disk.ensureAll true front.reverse = (none, middle))
    (makes : middle.makeDirectory (front ++ [name]) = .ok disk') :
    disk.ensureAll pending (front ++ [name]).reverse = (none, disk') := by
  rw [ensureAll_reverse, missing, above]
  exact ensureDirectory_new pending makes

theorem makeDirectories_eq {stopped : Option Obstacle} {disk' : Disk}
    (isPath : checkPath path = .ok ())
    (ends : disk.ensureAll false path.reverse = (stopped, disk')) :
    disk.makeDirectories path = (.ok stopped, disk') := by
  rw [makeDirectories, isPath]
  simp only [ends]

end

section

variable {origin : Disk} {root : Path} {home : Place} (vacant : Vacant origin root home)
  {branch : Branch} {disk : Disk} (shows : Shows origin home branch disk)
include vacant shows

theorem Shows.makeDirectories_root : disk.makeDirectories root = (.ok none, disk) := by
  obtain ⟨identity, isDirectory⟩ := shows.status_root vacant
  exact makeDirectories_eq vacant.checkPath_root
    (ensureAll_there false vacant.resolved.nonempty (shows.makeDirectory_root vacant) isDirectory)

variable {names : List String} (leads : branch.Leads names) {last : String}
  (plain : ∀ name ∈ names ++ [last], Plain name) (few : names.length < maxDepth)
include leads plain few

omit shows leads in
theorem Vacant.checkPath_concat : checkPath (root.trimmed ++ (names ++ [last])) = .ok () :=
  vacant.checkPath_below (by simp) plain (by rw [List.length_append]; exact few)

theorem Shows.makeDirectories_directory {identity : Nat}
    (isDirectory : branch (names ++ [last]) = some (.directory identity)) :
    disk.makeDirectories (root.trimmed ++ (names ++ [last])) = (.ok none, disk) :=
  makeDirectories_eq (vacant.checkPath_concat plain few)
    (ensureAll_there false (by simp)
      (shows.makeDirectory_directory vacant leads plain few isDirectory)
      (shows.status_directory vacant leads plain few isDirectory))

theorem Shows.makeDirectories_free (isFree : branch (names ++ [last]) = none) :
    disk.makeDirectories (root.trimmed ++ (names ++ [last]))
      = (.ok none, disk.addDirectory (home ++ (names ++ [last]))) :=
  makeDirectories_eq (vacant.checkPath_concat plain few)
    (ensureAll_new false (by simp) (shows.makeDirectory_free vacant leads plain few isFree))

omit leads plain few in
/-- Below a missing directory no directory is created alone. -/
theorem Shows.makeDirectory_missing (leads : branch.Leads names) {next : String}
    (plain : ∀ name ∈ names ++ [next] ++ [last], Plain name) (few : names.length + 1 < maxDepth)
    (free : branch (names ++ [next]) = none) :
    disk.makeDirectory (root.trimmed ++ (names ++ [next] ++ [last])) = .error .noEntry := by
  have split : names ++ [next] ++ [last] = names ++ next :: ([] ++ [last]) := by simp
  have noEntry := shows.locateEntry_missing vacant leads free (split ▸ plain)
    (by rw [← split, List.length_append, List.length_append]; exact few)
  unfold makeDirectory
  rw [split, noEntry]
  rfl

omit leads plain few in
/-- A directory is created together with the missing one above it. -/
theorem Shows.makeDirectories_missing (leads : branch.Leads names) {next : String}
    (plain : ∀ name ∈ names ++ [next] ++ [last], Plain name) (few : names.length + 1 < maxDepth)
    (free : branch (names ++ [next]) = none) (free' : branch (names ++ [next] ++ [last]) = none) :
    disk.makeDirectories (root.trimmed ++ (names ++ [next] ++ [last]))
      = (.ok none, (disk.addDirectory (home ++ (names ++ [next]))).addDirectory
        (home ++ (names ++ [next] ++ [last]))) := by
  have plainNext : ∀ name ∈ names ++ [next], Plain name :=
    fun name member => plain name (List.mem_append_left _ member)
  have fewer : names.length < maxDepth := Nat.lt_of_succ_lt few
  have nowhere := shows.makeDirectory_missing vacant leads plain few free
  have above := ensureAll_new true (by simp)
    (shows.makeDirectory_free vacant leads plainNext fewer free)
  have shows' := shows.addDirectory (show names ++ [next] ≠ [] by simp)
  have leads' : Branch.Leads (Function.update branch (names ++ [next])
      (some (.directory disk.nextIdentity))) (names ++ [next]) :=
    (leads.update_last next _).concat (Function.update_self ..)
  have makes := shows'.makeDirectory_free vacant leads' plain
    (by rw [List.length_append]; exact few)
    (by rw [Function.update_of_ne (by simp), free'])
  refine makeDirectories_eq (vacant.checkPath_concat plain (by rw [List.length_append]; exact few))
    ?_
  rw [← List.append_assoc root.trimmed] at nowhere makes ⊢
  exact ensureAll_parent false nowhere above makes

end

end DocStore.Disk
