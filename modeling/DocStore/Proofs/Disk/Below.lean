import DocStore.Proofs.Disk.Path
import Mathlib.Logic.Function.Basic
/-!
# The tree below a directory

A disk is watched from the moment at which a root was an empty directory (`Vacant`).  `Shows` says
that nothing else has changed since and what lies below the root now, as a tree of entries under
their names.  Changes of the disk at places below the root are changes of that tree: `Shows.put`,
`Shows.without`, `Shows.setContent` and `Shows.relocate`.

`Shows.locate` and `Shows.locateEntry` tell where a path below the root leads from the tree alone,
and `Shows.locate_missing` and `Shows.locateEntry_missing` that it leads nowhere when one of its
names is missing.
-/

set_option autoImplicit false

namespace DocStore.Disk

/-- The entries below a directory, each under the names that lead to it. -/
abbrev Branch : Type := List String → Option Entry

namespace Branch

/-- A branch without what lies at or below some names. -/
def without (branch : Branch) (names : List String) : Branch := fun other =>
  if below names other then none else branch other

/-- A branch after a file has been written. -/
def written (branch : Branch) (identity : Nat) (content : String) : Branch := fun other =>
  (branch other).map (Entry.written identity content)

/-- A branch after what lies at or below some names has gone to others. -/
def relocated (branch : Branch) (source target : List String) : Branch := fun other =>
  if below target other then branch (source ++ other.drop target.length)
  else if below source other then none
  else branch other

/-- Whether nothing lies below some names, whatever lies at them. -/
def Bare (branch : Branch) (names : List String) : Prop :=
  ∀ rest, rest ≠ [] → branch (names ++ rest) = none

theorem Bare.update {branch : Branch} {names other : List String} (bare : branch.Bare names)
    (outside : below names other = false) (found : Option Entry) :
    Branch.Bare (Function.update branch other found) names := by
  intro rest nonempty
  rw [Function.update_of_ne, bare rest nonempty]
  rintro rfl
  rw [below_append] at outside
  exact absurd outside (by decide)

/-- Where nothing lies below a place only the place itself is cleared. -/
theorem without_eq_update {branch : Branch} {names : List String} (bare : branch.Bare names) :
    branch.without names = Function.update branch names none := by
  funext other
  unfold without
  split
  next inside =>
    obtain ⟨rest, rfl⟩ := below_iff.mp inside
    rcases Classical.em (rest = []) with rfl | nonempty
    · rw [List.append_nil, Function.update_self]
    · rw [Function.update_of_ne (by simpa using nonempty), bare rest nonempty]
  next outside =>
    rw [Function.update_of_ne]
    rintro rfl
    exact outside (below_iff.mpr ⟨[], (List.append_nil other).symm⟩)

/-- What takes the place of something below which nothing lies, as above it. -/
theorem relocated_update {branch : Branch} {source target : List String}
    (bareSource : branch.Bare source) (bareTarget : branch.Bare target)
    (free : branch source = none) (found : Option Entry) :
    relocated (Function.update branch source found) source target
      = Function.update branch target found := by
  funext other
  unfold relocated
  split
  next inside =>
    obtain ⟨rest, rfl⟩ := below_iff.mp inside
    rw [List.drop_left]
    rcases Classical.em (rest = []) with rfl | nonempty
    · rw [List.append_nil, List.append_nil, Function.update_self, Function.update_self]
    · rw [Function.update_of_ne (by simpa using nonempty), bareSource rest nonempty,
        Function.update_of_ne (by simpa using nonempty), bareTarget rest nonempty]
  next outside =>
    have notTarget : other ≠ target := by
      rintro rfl
      exact outside (below_iff.mpr ⟨[], (List.append_nil other).symm⟩)
    rw [Function.update_of_ne notTarget]
    split
    next inSource =>
      obtain ⟨rest, rfl⟩ := below_iff.mp inSource
      rcases Classical.em (rest = []) with rfl | nonempty
      · rw [List.append_nil, free]
      · rw [bareSource rest nonempty]
    next notInSource =>
      rw [Function.update_of_ne]
      rintro rfl
      exact notInSource (below_iff.mpr ⟨[], (List.append_nil other).symm⟩)

/-- A file that is the only one of its identity gets a content. -/
theorem written_update {branch : Branch} {identity : Nat}
    (isNew : ∀ other entry, branch other = some entry → entry.identity? ≠ some identity)
    (names : List String) {old : String} (content : String) :
    written (Function.update branch names (some (.file identity old))) identity content
      = Function.update branch names (some (.file identity content)) := by
  funext other
  by_cases here : other = names
  · simp [written, here, Entry.written]
  · simp only [written, Function.update_of_ne here]
    cases found : branch other with
    | none => rfl
    | some entry => rw [Option.map_some, Entry.written_of_ne (isNew other entry found)]

theorem below_singleton (first other : String) (rest : List String) :
    below [first] (other :: rest) = (first == other) := by
  simp [below, List.isPrefixOf]

theorem without_singleton (branch : Branch) (name other : String) (rest : List String) :
    branch.without [name] (other :: rest) = if other = name then none else branch (other :: rest) := by
  rw [without, below_singleton]
  by_cases same : other = name <;> simp [same, Ne.symm]

theorem without_singleton_nil (branch : Branch) (name : String) :
    branch.without [name] [] = branch [] := by
  simp [without, below]

theorem relocated_singleton_nil (branch : Branch) (source target : String) :
    branch.relocated [source] [target] [] = branch [] := by
  simp [relocated, below]

/-- What a move from one name to another comes to. -/
theorem relocated_singleton (branch : Branch) (source target other : String) (rest : List String) :
    branch.relocated [source] [target] (other :: rest)
      = if other = target then branch (source :: rest)
        else if other = source then none else branch (other :: rest) := by
  rw [relocated, below_singleton, below_singleton]
  by_cases isTarget : other = target
  · simp [isTarget]
  · by_cases isSource : other = source
    · subst isSource
      simp [isTarget, Ne.symm isTarget]
    · simp [isTarget, isSource, Ne.symm isTarget, Ne.symm isSource]

/-- Whether every name of a path leads on to a directory. -/
def Leads (branch : Branch) (names : List String) : Prop :=
  ∀ front, front <+: names → front ≠ [] → ∃ identity, branch front = some (.directory identity)

theorem leads_nil (branch : Branch) : branch.Leads [] := by
  intro front isFront nonempty
  exact absurd (List.prefix_nil.mp isFront) nonempty

theorem Leads.concat {branch : Branch} {names : List String} (leads : branch.Leads names)
    {last : String} {identity : Nat}
    (isDirectory : branch (names ++ [last]) = some (.directory identity)) :
    branch.Leads (names ++ [last]) := by
  intro front isFront nonempty
  rcases List.prefix_concat_iff.mp isFront with rfl | inNames
  · exact ⟨identity, isDirectory⟩
  · exact leads front inNames nonempty

/-- What is put in a directory does not change which directories lead there. -/
theorem Leads.update_last {branch : Branch} {names : List String} (leads : branch.Leads names)
    (last : String) (found : Option Entry) :
    Branch.Leads (Function.update branch (names ++ [last]) found) names := by
  intro front isFront nonempty
  rw [Function.update_of_ne]
  · exact leads front isFront nonempty
  · rintro rfl
    have size := isFront.length_le
    rw [List.length_append, List.length_singleton] at size
    omega

/-- Whether a name of a path is missing where all names before it lead on. -/
def Absent (branch : Branch) (names : List String) : Prop :=
  ∃ front missing rest, names = front ++ missing :: rest ∧ branch.Leads front
    ∧ branch (front ++ [missing]) = none

end Branch

/-- How many names are put below a root at most. -/
def maxDepth : Nat := 3

/-- A root that leads to an empty directory of a disk in order, with room for names below it. -/
structure Vacant (origin : Disk) (root : Path) (home : Place) : Prop where
  resolved : Path.Resolved root
  sound : Sound origin
  rooted : Rooted origin
  leads : ∃ identity, origin.locate root = .ok ⟨home, some (.directory identity), false⟩
  room : root.text.utf8ByteSize + maxDepth * Path.roomForName ≤ maxPathBytes
  empty : ∀ names, names ≠ [] → origin.entry? (home ++ names) = none

/-- A disk on which nothing has changed but what lies below a directory. -/
structure Shows (origin : Disk) (home : Place) (branch : Branch) (disk : Disk) : Prop where
  sound : Sound disk
  outside : ∀ place, (∀ names, names ≠ [] → place ≠ home ++ names) →
    disk.entry? place = origin.entry? place
  grown : origin.nextIdentity ≤ disk.nextIdentity
  shows : ∀ names, names ≠ [] → disk.entry? (home ++ names) = branch names
  top : branch [] = none

/-- What lies below a directory. -/
def branchAt (disk : Disk) (home : Place) : Branch
  | [] => none
  | name :: rest => disk.entry? (home ++ name :: rest)

/-- There is one branch only that a disk shows. -/
theorem Shows.branchAt_eq {origin : Disk} {home : Place} {branch : Branch} {disk : Disk}
    (shows : Shows origin home branch disk) : disk.branchAt home = branch := by
  funext names
  cases names with
  | nil => exact shows.top.symm
  | cons name rest => exact shows.shows (name :: rest) (List.cons_ne_nil name rest)

/-- What differs on two disks on which nothing has changed but what lies below a directory lies
below it. -/
theorem Shows.exists_names {origin : Disk} {home : Place} {branch branch' : Branch}
    {disk disk' : Disk} (shows : Shows origin home branch disk)
    (shows' : Shows origin home branch' disk') {place : Place}
    (differs : disk.entry? place ≠ disk'.entry? place) :
    ∃ names, place = home ++ names ∧ disk.entry? place = branch names
      ∧ disk'.entry? place = branch' names := by
  by_contra elsewhere
  have isOutside (names : List String) (nonempty : names ≠ []) : place ≠ home ++ names := by
    rintro rfl
    exact elsewhere ⟨names, rfl, shows.shows names nonempty, shows'.shows names nonempty⟩
  exact differs ((shows.outside place isOutside).trans (shows'.outside place isOutside).symm)

section

variable {origin : Disk} {root : Path} {home : Place} (vacant : Vacant origin root home)

/-- Where nothing is below the root nothing has changed yet. -/
theorem Vacant.shows (vacant : Vacant origin root home) :
    Shows origin home (fun _ => none) origin where
  sound := vacant.sound
  outside _ _ := rfl
  grown := Nat.le_refl _
  shows names nonempty := vacant.empty names nonempty
  top := rfl

theorem below_append_append (above first second : Place) :
    below (above ++ first) (above ++ second) = below first second := by
  rw [Bool.eq_iff_iff, below, below, List.isPrefixOf_iff_prefix, List.isPrefixOf_iff_prefix,
    List.prefix_append_right_inj]

/-! ## Changes below the root -/

include vacant

/-- What was there at first is still there. -/
theorem Shows.extended {branch : Branch} {disk : Disk} (shows : Shows origin home branch disk) :
    Extends origin disk := by
  intro place entry found
  rw [shows.outside place, found]
  rintro names nonempty rfl
  rw [vacant.empty names nonempty] at found
  exact absurd found (by simp)

omit vacant in
/-- A change at places below the root is a change of the branch. -/
theorem Shows.change {branch branch' : Branch} {disk disk' : Disk}
    (shows : Shows origin home branch disk) (sound : Sound disk')
    (given : disk'.nextIdentity = disk.nextIdentity) (top : branch' [] = none)
    (outside : ∀ place, (∀ names, names ≠ [] → place ≠ home ++ names) →
      disk'.entry? place = disk.entry? place)
    (inside : ∀ names, names ≠ [] → disk'.entry? (home ++ names) = branch' names) :
    Shows origin home branch' disk' where
  sound := sound
  outside place isOutside := (outside place isOutside).trans (shows.outside place isOutside)
  grown := given ▸ shows.grown
  shows := inside
  top := top

variable {branch : Branch} {disk : Disk} (shows : Shows origin home branch disk)
include shows

omit vacant in
theorem Shows.put {names : List String} (nonempty : names ≠ []) {entry : Entry}
    (isGiven : ∀ identity ∈ entry.identity?, identity < disk.nextIdentity) :
    Shows origin home (Function.update branch names (some entry))
      (disk.put (home ++ names) entry) := by
  have below : home ++ names ≠ [] := by simp [nonempty]
  refine shows.change (sound_put shows.sound below isGiven) rfl ?_
    (fun place outside => ?_) fun other isBelow => ?_
  · rw [Function.update_of_ne (Ne.symm nonempty), shows.top]
  · rw [entry?_put shows.sound below isGiven, if_neg (outside names nonempty)]
  · simp only [entry?_put shows.sound below isGiven, Function.update_apply,
      shows.shows other isBelow, List.append_cancel_left_eq]

omit vacant in
theorem Shows.addIdentity :
    Shows origin home branch { disk with nextIdentity := disk.nextIdentity + 1 } where
  sound := sound_nextIdentity shows.sound
  outside := shows.outside
  grown := Nat.le_succ_of_le shows.grown
  shows := shows.shows
  top := shows.top

omit vacant in
theorem Shows.addDirectory {names : List String} (nonempty : names ≠ []) :
    Shows origin home (Function.update branch names (some (.directory disk.nextIdentity)))
      (disk.addDirectory (home ++ names)) :=
  shows.addIdentity.put nonempty (by simp [Entry.identity?])

omit vacant in
theorem Shows.addFile {names : List String} (nonempty : names ≠ []) :
    Shows origin home (Function.update branch names (some (.file disk.nextIdentity "")))
      (disk.addFile (home ++ names)) :=
  shows.addIdentity.put nonempty (by simp [Entry.identity?])

omit vacant in
theorem Shows.without {names : List String} (nonempty : names ≠ []) :
    Shows origin home (branch.without names) (disk.without (home ++ names)) := by
  have below : home ++ names ≠ [] := by simp [nonempty]
  refine shows.change (sound_without shows.sound _) rfl ?_ (fun place outside => ?_)
    fun other isBelow => ?_
  · rw [Branch.without, shows.top, ite_self]
  · rw [entry?_without shows.sound below, if_neg]
    intro inside
    obtain ⟨rest, rfl⟩ := below_iff.mp inside
    exact outside (names ++ rest) (by simp [nonempty]) (List.append_assoc _ _ _)
  · rw [entry?_without shows.sound below, below_append_append, shows.shows other isBelow]
    rfl

/-- An identity that has been given since belongs to nothing that was there before. -/
theorem Shows.setContent {identity : Nat} (content : String)
    (isNew : origin.nextIdentity ≤ identity) :
    Shows origin home (branch.written identity content) (disk.setContent identity content) where
  sound := sound_setContent shows.sound identity content
  outside place isOutside := by
    rw [entry?_setContent, shows.outside place isOutside]
    cases found : origin.entry? place with
    | none => rfl
    | some entry =>
        rw [Option.map_some]
        cases place with
        | nil =>
            obtain rfl : Entry.directory 0 = entry := Option.some.inj found
            rfl
        | cons name rest =>
            rw [Entry.written_of_ne]
            intro same
            have isOld := vacant.sound.lt_nextIdentity (by simp) found same
            omega
  grown := shows.grown
  shows names nonempty := by
    rw [entry?_setContent, shows.shows names nonempty]
    rfl
  top := by rw [Branch.written, shows.top]; rfl

omit vacant in
/-- Nothing below the root has the identity that is given next. -/
theorem Shows.lt_nextIdentity {names : List String} {entry : Entry}
    (found : branch names = some entry) {identity : Nat}
    (isIdentity : entry.identity? = some identity) : identity < disk.nextIdentity := by
  by_cases nonempty : names = []
  · rw [nonempty, shows.top] at found
    exact absurd found (by simp)
  · rw [← shows.shows names nonempty] at found
    exact shows.sound.lt_nextIdentity (by simp [nonempty]) found isIdentity

/-- A new file has the content that is written to it, and no other file gets it. -/
theorem Shows.addWritten {names : List String} (nonempty : names ≠ []) (content : String) :
    Shows origin home (Function.update branch names (some (.file disk.nextIdentity content)))
      ((disk.addFile (home ++ names)).setContent disk.nextIdentity content) := by
  have written := (shows.addFile nonempty).setContent vacant content shows.grown
  rwa [Branch.written_update fun other entry found isIdentity =>
    absurd (shows.lt_nextIdentity found isIdentity) (Nat.lt_irrefl _)] at written

omit vacant in
theorem Shows.relocate {source target : List String} (fromBelow : source ≠ [])
    (toBelow : target ≠ []) (apart : below source target = false)
    (apart' : below target source = false) :
    Shows origin home (branch.relocated source target)
      (disk.relocate (home ++ source) (home ++ target)) := by
  have fromPlace : home ++ source ≠ [] := by simp [fromBelow]
  have toPlace : home ++ target ≠ [] := by simp [toBelow]
  have apartPlaces : below (home ++ source) (home ++ target) = false := by
    rwa [below_append_append]
  have apartPlaces' : below (home ++ target) (home ++ source) = false := by
    rwa [below_append_append]
  have rule := entry?_relocate shows.sound fromPlace toPlace apartPlaces apartPlaces'
  refine shows.change (sound_relocate shows.sound toPlace) rfl ?_ (fun place outside => ?_)
    fun other isBelow => ?_
  · rw [Branch.relocated, if_neg (by simp [below, toBelow]), shows.top, ite_self]
  · have outOf {names : List String} (nonempty : names ≠ []) :
        ¬ below (home ++ names) place = true := fun inside => by
      obtain ⟨rest, rfl⟩ := below_iff.mp inside
      exact outside (names ++ rest) (by simp [nonempty]) (List.append_assoc _ _ _)
    rw [rule, if_neg (outOf toBelow), if_neg (outOf fromBelow)]
  · rw [rule, below_append_append, below_append_append, shows.shows other isBelow]
    simp only [Branch.relocated]
    split
    next inTarget =>
      obtain ⟨rest, rfl⟩ := below_iff.mp inTarget
      rw [← List.append_assoc, List.drop_left, List.drop_left, List.append_assoc,
        shows.shows _ (by simp [fromBelow])]
    next => rfl

end

/-! ## Where paths below the root lead -/

section

variable {origin : Disk} {root : Path} {home : Place} (vacant : Vacant origin root home)
include vacant

theorem Vacant.standing : Standing origin root home :=
  ⟨vacant.resolved, vacant.rooted, vacant.leads⟩

theorem Vacant.checkPath_root : checkPath root = .ok () := vacant.standing.checkPath

/-- Paths of at most three plain names below the root can be asked for. -/
theorem Vacant.checkPath_below {names : List String} (nonempty : names ≠ [])
    (plain : ∀ name ∈ names, Plain name) (few : names.length ≤ maxDepth) :
    checkPath (root.trimmed ++ names) = .ok () := by
  refine Path.checkPath_below nonempty plain vacant.checkPath_root ?_
  have room := vacant.room
  have most := Nat.mul_le_mul_right Path.roomForName few
  omega

variable {branch : Branch} {disk : Disk} (shows : Shows origin home branch disk)
include shows

/-- The root is a directory. -/
theorem Shows.entry?_home : ∃ identity, disk.entry? home = some (.directory identity) :=
  vacant.standing.entry?_home (shows.extended vacant)

/-- From the root a walk goes on to what lies below it. -/
theorem Shows.walk_root :
    ∃ links, ∀ rest, walk disk maxLinks [] (root.trimmed ++ rest) = walk disk links home rest :=
  vacant.standing.walk_below (shows.extended vacant)

omit vacant in
theorem Shows.leads {names : List String} (leads : branch.Leads names) : Leads disk home names := by
  intro front isFront nonempty
  rw [shows.shows front nonempty]
  exact leads front isFront nonempty

variable {names : List String} (leads : branch.Leads names)
include leads

/-- Below directories a path leads to the entry of its last name. -/
theorem Shows.locate {last : String} (plain : ∀ name ∈ names ++ [last], Plain name)
    (few : names.length < maxDepth) (noLink : ∀ target, branch (names ++ [last]) ≠ some (.link target)) :
    disk.locate (root.trimmed ++ (names ++ [last]))
      = .ok ⟨home ++ (names ++ [last]), branch (names ++ [last]), false⟩ := by
  obtain ⟨links, goesOn⟩ := shows.walk_root vacant
  have checked := vacant.checkPath_below (show names ++ [last] ≠ [] by simp) plain
    (by rw [List.length_append]; exact few)
  have found : disk.entry? (home ++ names ++ [last]) = branch (names ++ [last]) := by
    rw [List.append_assoc, shows.shows _ (by simp)]
  rw [locate_eq_ok_iff]
  refine ⟨checked, ?_⟩
  rw [goesOn, walk_names links (fun name member => plain name (List.mem_append_left _ member))
    (shows.leads leads) (plain last (by simp)) (by rw [found]; exact noLink), found,
    List.append_assoc]

omit leads shows in
/-- What `locateEntry` makes of the directory before the last name. -/
theorem Vacant.locateEntry_eq (disk : Disk) {last : String} (plain : ∀ name ∈ names ++ [last], Plain name)
    (few : names.length < maxDepth) :
    disk.locateEntry (root.trimmed ++ (names ++ [last]))
      = (walk disk maxLinks [] (root.trimmed ++ names)).bind fun directory =>
          match directory.entry with
          | none => .error .noEntry
          | some (.directory _) =>
              .ok ⟨directory.place ++ [last], disk.entry? (directory.place ++ [last]), false⟩
          | some _ => .error .notDirectory := by
  have checked := vacant.checkPath_below (show names ++ [last] ≠ [] by simp) plain
    (by rw [List.length_append]; exact few)
  rw [← List.append_assoc] at checked ⊢
  exact Path.locateEntry_concat (plain last (by simp)) checked disk

/-- The same where a link at the end is not followed. -/
theorem Shows.locateEntry {last : String} (plain : ∀ name ∈ names ++ [last], Plain name)
    (few : names.length < maxDepth) :
    disk.locateEntry (root.trimmed ++ (names ++ [last]))
      = .ok ⟨home ++ (names ++ [last]), branch (names ++ [last]), false⟩ := by
  obtain ⟨links, goesOn⟩ := shows.walk_root vacant
  have through := walk_directories links
    (fun name member => plain name (List.mem_append_left _ member)) (shows.leads leads) []
  rw [List.append_nil] at through
  have isDirectory : ∃ identity, disk.entry? (home ++ names) = some (.directory identity) := by
    by_cases atRoot : names = []
    · rw [atRoot, List.append_nil]
      exact shows.entry?_home vacant
    · exact shows.leads leads names (List.prefix_refl names) atRoot
  obtain ⟨identity, isDirectory⟩ := isDirectory
  rw [vacant.locateEntry_eq disk plain few, goesOn, through, walk_eq, walkWith, isDirectory]
  simp only [Except.bind]
  rw [List.append_assoc, shows.shows _ (by simp)]

/-- A path does not lead through a file. -/
theorem Shows.locate_through_file {file next : String} {rest : List String}
    (plain : ∀ name ∈ names ++ file :: next :: rest, Plain name)
    (few : (names ++ file :: next :: rest).length ≤ maxDepth) {identity : Nat} {content : String}
    (isFile : branch (names ++ [file]) = some (.file identity content)) :
    disk.locate (root.trimmed ++ (names ++ file :: next :: rest)) = .error .notDirectory := by
  obtain ⟨links, goesOn⟩ := shows.walk_root vacant
  have checked := vacant.checkPath_below (by simp) plain few
  have found : disk.entry? (home ++ names ++ [file]) = some (.file identity content) := by
    rw [List.append_assoc, shows.shows _ (by simp), isFile]
  have fails := walk_names_file links
    (fun name member => plain name (List.mem_append_left _ member)) (shows.leads leads)
    (plain file (by simp)) (plain next (by simp)) rest found
  unfold Disk.locate
  rw [checked, goesOn, fails]
  rfl

variable {missing : String} (isMissing : branch (names ++ [missing]) = none)
include isMissing

/-- Where a name on the way is missing a path leads nowhere. -/
theorem Shows.locate_missing {next : String} {rest : List String}
    (plain : ∀ name ∈ names ++ missing :: next :: rest, Plain name)
    (few : (names ++ missing :: next :: rest).length ≤ maxDepth) :
    disk.locate (root.trimmed ++ (names ++ missing :: next :: rest)) = .error .noEntry := by
  obtain ⟨links, goesOn⟩ := shows.walk_root vacant
  have checked := vacant.checkPath_below (by simp) plain few
  have absent : disk.entry? (home ++ names ++ [missing]) = none := by
    rw [List.append_assoc, shows.shows _ (by simp), isMissing]
  have fails := walk_names_missing links
    (fun name member => plain name (List.mem_append_left _ member)) (shows.leads leads)
    (plain missing (by simp)) (plain next (by simp)) rest absent
  unfold Disk.locate
  rw [checked, goesOn, fails]
  rfl

/-- The same where a link at the end would not be followed. -/
theorem Shows.locateEntry_missing {rest : List String} {last : String}
    (plain : ∀ name ∈ names ++ missing :: (rest ++ [last]), Plain name)
    (few : (names ++ missing :: (rest ++ [last])).length ≤ maxDepth) :
    disk.locateEntry (root.trimmed ++ (names ++ missing :: (rest ++ [last]))) = .error .noEntry := by
  obtain ⟨links, goesOn⟩ := shows.walk_root vacant
  have absent : disk.entry? (home ++ names ++ [missing]) = none := by
    rw [List.append_assoc, shows.shows _ (by simp), isMissing]
  have split : names ++ missing :: (rest ++ [last]) = (names ++ missing :: rest) ++ [last] := by simp
  rw [split] at plain few ⊢
  rw [vacant.locateEntry_eq disk plain (by rw [List.length_append] at few; exact few), goesOn]
  cases rest with
  | nil =>
      have arrives := walk_names links
        (fun name member => plain name (by simp [member])) (shows.leads leads)
        (plain missing (by simp)) (by rw [absent]; simp)
      rw [arrives, absent]
      rfl
  | cons next rest =>
      have fails := walk_names_missing links
        (fun name member => plain name (by simp [member])) (shows.leads leads)
        (plain missing (by simp)) (plain next (by simp)) rest absent
      rw [fails]
      rfl

end

section

variable {origin : Disk} {root : Path} {home : Place} (vacant : Vacant origin root home)
  {branch : Branch} {disk : Disk} (shows : Shows origin home branch disk)
  {names : List String} (absent : branch.Absent names) (plain : ∀ name ∈ names, Plain name)
  (few : names.length ≤ maxDepth)
include vacant shows absent plain few

/-- A path to something absent leads nowhere, or to a place where nothing is. -/
theorem Shows.locate_absent :
    disk.locate (root.trimmed ++ names) = .error .noEntry
      ∨ ∃ place, disk.locate (root.trimmed ++ names) = .ok ⟨place, none, false⟩ := by
  obtain ⟨front, missing, rest, rfl, leads, isMissing⟩ := absent
  cases rest with
  | nil =>
      have found := shows.locate vacant leads plain
        (by rw [List.length_append] at few; exact few) (by rw [isMissing]; simp)
      exact .inr ⟨_, by rw [found, isMissing]⟩
  | cons next rest => exact .inl (shows.locate_missing vacant leads isMissing plain few)

theorem Shows.locateEntry_absent :
    disk.locateEntry (root.trimmed ++ names) = .error .noEntry
      ∨ ∃ place, disk.locateEntry (root.trimmed ++ names) = .ok ⟨place, none, false⟩ := by
  obtain ⟨front, missing, rest, rfl, leads, isMissing⟩ := absent
  rcases List.eq_nil_or_concat' rest with rfl | ⟨rest, last, rfl⟩
  · have found := shows.locateEntry vacant leads plain
      (by rw [List.length_append] at few; exact few)
    exact .inr ⟨_, by rw [found, isMissing]⟩
  · exact .inl (shows.locateEntry_missing vacant leads isMissing plain few)

end

end DocStore.Disk
