import DocStore.Proofs.Disk.Calls
import Mathlib.Data.List.Induction
/-!
# A root that is yet to be made

A root need not be there when a storage in files is opened.  It is yet to be made when some front of
it leads to a directory and the names that follow are missing (`Unmade`).  Every path at or below
such a root leads nowhere.  Creating the root puts directories in its place and nothing else
(`withDirectories`), which is an empty root then; and creating a directory below it comes to the
same as if the root had been created before (`Unmade.exists_vacant`).
-/

set_option autoImplicit false

namespace DocStore.Disk

/-- A root that is yet to be made: from a directory of a disk in order, names lead on to it of which
the first is missing. -/
structure Unmade (origin : Disk) (root : Path) (home : Place) : Prop where
  resolved : Path.Resolved root
  sound : Sound origin
  rooted : Rooted origin
  isPath : checkPath root = .ok ()
  room : root.text.utf8ByteSize + maxDepth * Path.roomForName ≤ maxPathBytes
  missing : ∃ front base first rest identity,
    root = front ++ first :: rest ∧ home = base ++ first :: rest
      ∧ walk origin maxLinks [] front = .ok ⟨base, some (.directory identity), false⟩
      ∧ (∀ name ∈ first :: rest, Plain name) ∧ origin.entry? (base ++ [first]) = none

/-- A directory that is yet to be made, however long its path may be. -/
structure Unbuilt (origin : Disk) (directory : Path) (home : Place) : Prop where
  resolved : Path.Resolved directory
  sound : Sound origin
  rooted : Rooted origin
  isPath : checkPath directory = .ok ()
  missing : ∃ front base first rest identity,
    directory = front ++ first :: rest ∧ home = base ++ first :: rest
      ∧ walk origin maxLinks [] front = .ok ⟨base, some (.directory identity), false⟩
      ∧ (∀ name ∈ first :: rest, Plain name) ∧ origin.entry? (base ++ [first]) = none

theorem Unmade.unbuilt {origin : Disk} {root : Path} {home : Place}
    (unmade : Unmade origin root home) : Unbuilt origin root home :=
  ⟨unmade.resolved, unmade.sound, unmade.rooted, unmade.isPath, unmade.missing⟩

/-! ## Directories inside each other -/

/-- The disk with new directories inside each other, the first of them at a place. -/
def withDirectories (disk : Disk) (base : Place) : List String → Disk
  | [] => disk
  | name :: rest => (disk.addDirectory (base ++ [name])).withDirectories (base ++ [name]) rest

theorem withDirectories_concat (disk : Disk) (base : Place) (names : List String) (last : String) :
    disk.withDirectories base (names ++ [last])
      = (disk.withDirectories base names).addDirectory (base ++ names ++ [last]) := by
  induction names generalizing disk base with
  | nil => simp [withDirectories]
  | cons name names ih => simp [withDirectories, ih]

section

variable {disk : Disk} {base : Place} {names : List String}

theorem sound_withDirectories (sound : Sound disk) : Sound (disk.withDirectories base names) := by
  induction names generalizing disk base with
  | nil => exact sound
  | cons name names ih => exact ih (sound_addDirectory sound (by simp))

variable (base names) in
/-- New directories come to the places that lead to the innermost one, and nothing else changes. -/
theorem entry?_withDirectories (sound : Sound disk) (place : Place) :
    (∃ front identity, front <+: names ∧ front ≠ [] ∧ place = base ++ front
        ∧ Disk.entry? (disk.withDirectories base names) place = some (.directory identity))
      ∨ (∀ front, front <+: names → front ≠ [] → place ≠ base ++ front)
        ∧ Disk.entry? (disk.withDirectories base names) place = disk.entry? place := by
  induction names using List.reverseRecOn with
  | nil => exact .inr ⟨fun front isFront nonempty => absurd (List.prefix_nil.mp isFront) nonempty, rfl⟩
  | append_singleton names last ih =>
      rw [withDirectories_concat,
        entry?_addDirectory (sound_withDirectories sound) (by simp : base ++ names ++ [last] ≠ [])]
      split
      next here =>
        exact .inl ⟨names ++ [last], _, List.prefix_refl _, by simp, by simpa using here, rfl⟩
      next elsewhere =>
        rcases ih with ⟨front, identity, isFront, nonempty, isPlace, found⟩ | ⟨outside, same⟩
        · exact .inl ⟨front, identity, isFront.trans (List.prefix_append _ _), nonempty, isPlace,
            found⟩
        · refine .inr ⟨fun front isFront nonempty isPlace => ?_, same⟩
          rcases List.prefix_concat_iff.mp isFront with rfl | inNames
          · exact elsewhere (by simpa using isPlace)
          · exact outside front inNames nonempty isPlace

variable (base names) in
theorem leads_withDirectories (sound : Sound disk) :
    Leads (disk.withDirectories base names) base names := by
  intro front isFront nonempty
  rcases entry?_withDirectories base names sound (base ++ front) with
    ⟨_, identity, _, _, _, found⟩ | ⟨outside, _⟩
  · exact ⟨identity, found⟩
  · exact absurd rfl (outside front isFront nonempty)

/-- What is put where nothing was leaves everything else as it was. -/
theorem extends_withDirectories (sound : Sound disk)
    (free : ∀ front, front <+: names → front ≠ [] → disk.entry? (base ++ front) = none) :
    Extends disk (disk.withDirectories base names) := by
  intro place entry found
  rcases entry?_withDirectories base names sound place with
    ⟨front, _, isFront, nonempty, rfl, _⟩ | ⟨_, same⟩
  · rw [free front isFront nonempty] at found
    cases found
  · rw [same, found]

theorem rooted_withDirectories (sound : Sound disk) (rooted : Rooted disk)
    (extended : Extends disk (disk.withDirectories base names)) {identity : Nat}
    (isDirectory : disk.entry? base = some (.directory identity)) :
    Rooted (disk.withDirectories base names) := by
  intro place entry found
  rcases entry?_withDirectories base names sound place with
    ⟨front, _, isFront, nonempty, rfl, _⟩ | ⟨_, same⟩
  · obtain ⟨above, last, rfl⟩ := (List.eq_nil_or_concat' front).resolve_left nonempty
    rw [← List.append_assoc, List.dropLast_concat]
    by_cases atBase : above = []
    · rw [atBase, List.append_nil]
      exact ⟨identity, extended _ _ isDirectory⟩
    · exact leads_withDirectories base names sound above ((List.prefix_append _ _).trans isFront) atBase
  · rw [same] at found
    obtain ⟨identity', isDirectory'⟩ := rooted place entry found
    exact ⟨identity', extended _ _ isDirectory'⟩

end

/-- Nothing lies below a place where nothing is. -/
theorem Rooted.nothing_below {disk : Disk} (rooted : Rooted disk) {place : Place}
    (nothing : disk.entry? place = none) (names : List String) :
    disk.entry? (place ++ names) = none := by
  induction names using List.reverseRecOn with
  | nil => rwa [List.append_nil]
  | append_singleton names last ih =>
      by_contra there
      obtain ⟨entry, found⟩ := Option.ne_none_iff_exists'.mp there
      obtain ⟨identity, isDirectory⟩ := rooted _ _ found
      rw [← List.append_assoc, List.dropLast_concat, ih] at isDirectory
      cases isDirectory

/-! ## Making the root -/

section

variable {origin : Disk} {front : Path} {base : Place} {first : String} {identity : Nat}
  (arrives : walk origin maxLinks [] front = .ok ⟨base, some (.directory identity), false⟩)
  (nothing : origin.entry? (base ++ [first]) = none)

include arrives in
/-- Behind a directory a walk goes on, also after more has been put on the disk. -/
theorem walk_made {disk : Disk} (extended : Extends origin disk) :
    ∃ links, ∀ rest, walk disk maxLinks [] (front ++ rest) = walk disk links base rest :=
  walk_append extended maxLinks front [] arrives

include arrives nothing in
/-- Below what is missing a path leads nowhere. -/
theorem walk_unmade {rest : List String} (plain : ∀ name ∈ first :: rest, Plain name) :
    walk origin maxLinks [] (front ++ first :: rest)
      = if rest = [] then .ok ⟨base ++ [first], none, false⟩ else .error .noEntry := by
  obtain ⟨links, goesOn⟩ := walk_made arrives (Extends.refl origin)
  have none : origin.entry? (base ++ [] ++ [first]) = none := by rwa [List.append_nil]
  rw [goesOn]
  cases rest with
  | nil =>
      have ends := walk_names links (by simp) (leads_nil origin base) (plain first (by simp))
        (by rw [none]; simp)
      rw [if_pos rfl]
      simpa [none, nothing] using ends
  | cons next rest =>
      rw [if_neg (by simp)]
      exact walk_names_missing links (by simp) (leads_nil origin base) (plain first (by simp))
        (plain next (by simp)) rest none

variable (sound : Sound origin) (rooted : Rooted origin)
include rooted nothing

theorem free_below (rest : List String) :
    ∀ before, before <+: first :: rest → before ≠ [] → origin.entry? (base ++ before) = none := by
  intro before isFront nonempty
  obtain ⟨name, before, rfl⟩ := List.exists_cons_of_ne_nil nonempty
  obtain ⟨rfl, -⟩ := List.cons_prefix_cons.mp isFront
  have none := rooted.nothing_below nothing before
  rwa [List.append_assoc] at none

include sound

theorem extends_made (rest : List String) :
    Extends origin (origin.withDirectories base (first :: rest)) :=
  extends_withDirectories sound (free_below nothing rooted rest)

include arrives

/-- Directories are created one inside the other where the first of them is missing. -/
theorem ensureAll_unmade {rest : List String} (plain : ∀ name ∈ first :: rest, Plain name)
    (isPath : checkPath (front ++ first :: rest) = .ok ()) (pending : Bool) :
    origin.ensureAll pending (front ++ first :: rest).reverse
      = (none, origin.withDirectories base (first :: rest)) := by
  induction rest using List.reverseRecOn generalizing pending with
  | nil =>
      obtain ⟨links, goesOn⟩ := walk_made arrives (Extends.refl origin)
      refine ensureAll_new pending (by simp) ?_
      unfold makeDirectory
      rw [Path.locateEntry_concat (plain first (by simp)) isPath, arrives]
      simp [Except.bind, bind, nothing, withDirectories]
  | append_singleton rest last ih =>
      have split : front ++ first :: (rest ++ [last]) = (front ++ first :: rest) ++ [last] := by simp
      have plainRest : ∀ name ∈ first :: rest, Plain name := fun name member =>
        plain name (by rw [← List.cons_append]; exact List.mem_append_left _ member)
      have isPathRest : checkPath (front ++ first :: rest) = .ok () :=
        Path.checkPath_of_append (by simp) (split ▸ isPath)
      have plainLast := plain last (by simp)
      rw [split] at isPath ⊢
      rw [← List.cons_append, withDirectories_concat]
      refine ensureAll_parent pending ?_ (ih plainRest isPathRest true) ?_
      · unfold makeDirectory
        rw [Path.locateEntry_concat plainLast isPath, walk_unmade arrives nothing plainRest]
        split <;> rfl
      · obtain ⟨links, goesOn⟩ := walk_made arrives (extends_made nothing sound rooted rest)
        have leads := leads_withDirectories base (first :: rest) sound
        obtain ⟨identity', isDirectory⟩ := leads _ (List.prefix_refl _) (by simp)
        have through := walk_directories links plainRest leads []
        rw [List.append_nil] at through
        have free : Disk.entry? (origin.withDirectories base (first :: rest))
            (base ++ first :: rest ++ [last]) = none := by
          rcases entry?_withDirectories base (first :: rest) sound
              (base ++ first :: rest ++ [last]) with ⟨before, _, isFront, _, same, _⟩ | ⟨_, same⟩
          · have size := isFront.length_le
            have sizes := congrArg List.length same
            simp at size sizes
            omega
          · have none := rooted.nothing_below nothing (rest ++ [last])
            rw [same]
            simpa using none
        unfold makeDirectory
        rw [Path.locateEntry_concat plainLast isPath, goesOn, through, walk_eq, walkWith, isDirectory]
        simp only [Except.bind, bind, free]

/-- Once it is made the path leads to a directory. -/
theorem standing_made {rest : List String} (resolved : Path.Resolved (front ++ first :: rest))
    (plain : ∀ name ∈ first :: rest, Plain name)
    (isPath : checkPath (front ++ first :: rest) = .ok ()) :
    Standing (origin.withDirectories base (first :: rest)) (front ++ first :: rest)
      (base ++ first :: rest) := by
  have extended := extends_made nothing sound rooted rest
  have leads := leads_withDirectories base (first :: rest) sound
  refine ⟨resolved, rooted_withDirectories sound rooted extended (entry?_of_walk arrives), ?_⟩
  obtain ⟨links, goesOn⟩ := walk_made arrives extended
  obtain ⟨identity', isMade⟩ := leads _ (List.prefix_refl _) (by simp)
  have through := walk_directories links plain leads []
  rw [List.append_nil] at through
  exact ⟨identity', locate_eq_ok_iff.mpr ⟨isPath, by rw [goesOn, through, walk_eq, walkWith, isMade]⟩⟩

omit arrives in
/-- Once it is made nothing lies below it. -/
theorem empty_made (rest : List String) {names : List String} (nonempty : names ≠ []) :
    Disk.entry? (origin.withDirectories base (first :: rest)) (base ++ first :: rest ++ names)
      = none := by
  rcases entry?_withDirectories base (first :: rest) sound
      (base ++ first :: rest ++ names) with ⟨before, _, isFront, _, same, _⟩ | ⟨_, same⟩
  · have size := isFront.length_le
    have sizes := congrArg List.length same
    have positive := List.length_pos_iff.mpr nonempty
    simp at size sizes
    omega
  · have none := rooted.nothing_below nothing (rest ++ names)
    rw [same]
    simpa using none

omit arrives in
/-- Nothing changes while it is made, but that directories lead there. -/
theorem changed_made (rest : List String) {place : Place}
    (changed : Disk.entry? (origin.withDirectories base (first :: rest)) place
      ≠ origin.entry? place) :
    below place (base ++ first :: rest) = true ∧ origin.entry? place = none
      ∧ ∃ identity, Disk.entry? (origin.withDirectories base (first :: rest)) place
        = some (.directory identity) := by
  rcases entry?_withDirectories base (first :: rest) sound place with
    ⟨before, identity', isFront, nonempty, rfl, found⟩ | ⟨_, same⟩
  · refine ⟨?_, free_below nothing rooted rest before isFront nonempty, identity', found⟩
    rw [below_append_append, below, List.isPrefixOf_iff_prefix]
    exact isFront
  · exact absurd same changed

end

section

variable {origin : Disk} {directory : Path} {home : Place}
  (unbuilt : Unbuilt origin directory home)
include unbuilt

theorem Unbuilt.trimmed : directory.trimmed = directory := by
  obtain ⟨front, base, first, rest, identity, rfl, _, _, plain, _⟩ := unbuilt.missing
  exact Path.trimmed_below front (by simp) plain

/-- At and below the directory nothing is found. -/
theorem Unbuilt.locate {names : List String} (plain : ∀ name ∈ names, Plain name)
    (isPath : checkPath (directory.trimmed ++ names) = .ok ()) :
    origin.locate (directory.trimmed ++ names) = .error .noEntry
      ∨ ∃ place, origin.locate (directory.trimmed ++ names) = .ok ⟨place, none, false⟩ := by
  rw [unbuilt.trimmed] at isPath ⊢
  obtain ⟨front, base, first, rest, identity, rfl, _, arrives, plainRoot, nothing⟩ := unbuilt.missing
  have plainAll : ∀ name ∈ first :: (rest ++ names), Plain name := by
    intro name member
    rw [← List.cons_append] at member
    exact (List.mem_append.mp member).elim (plainRoot name) (plain name)
  have walked := walk_unmade arrives nothing plainAll
  rw [← List.cons_append, ← List.append_assoc] at walked
  unfold Disk.locate
  rw [isPath]
  simp only [bind, Except.bind, walked]
  split
  · exact .inr ⟨_, rfl⟩
  · exact .inl rfl

/-- There is nothing at the directory and below it. -/
theorem Unbuilt.free (names : List String) : origin.entry? (home ++ names) = none := by
  obtain ⟨_, base, first, rest, _, _, rfl, _, _, nothing⟩ := unbuilt.missing
  simpa using unbuilt.rooted.nothing_below nothing (rest ++ names)

theorem Unbuilt.read {names : List String} (plain : ∀ name ∈ names, Plain name)
    (isPath : checkPath (directory.trimmed ++ names) = .ok ()) :
    origin.read (directory.trimmed ++ names) = .error .noEntry := by
  unfold Disk.read
  rcases unbuilt.locate plain isPath with missing | ⟨place, missing⟩ <;> rw [missing] <;> rfl

/-- **Once it is made** a path leads to an empty directory, and nothing else has changed. -/
theorem Unbuilt.exists_standing :
    ∃ made, origin.makeDirectories directory = (.ok none, made) ∧ Sound made
      ∧ Standing made directory home ∧ ∀ names, names ≠ [] → made.entry? (home ++ names) = none := by
  obtain ⟨resolved, sound, rooted, isPath, front, base, first, rest, identity, rfl, rfl, arrives,
    plain, nothing⟩ := unbuilt
  exact ⟨_, makeDirectories_eq isPath
    (ensureAll_unmade arrives nothing sound rooted plain isPath false), sound_withDirectories sound,
    standing_made arrives nothing sound rooted resolved plain isPath,
    fun names nonempty => empty_made nothing sound rooted rest nonempty⟩

end

section

variable {origin : Disk} {root : Path} {home : Place} (unmade : Unmade origin root home)
include unmade

theorem Unmade.trimmed_root : root.trimmed = root := unmade.unbuilt.trimmed

theorem Unmade.checkPath_below {names : List String} (plain : ∀ name ∈ names, Plain name)
    (few : names.length ≤ maxDepth) : checkPath (root.trimmed ++ names) = .ok () := by
  by_cases atRoot : names = []
  · rw [atRoot, List.append_nil, unmade.trimmed_root]
    exact unmade.isPath
  · refine Path.checkPath_below atRoot plain unmade.isPath ?_
    have room := unmade.room
    have most := Nat.mul_le_mul_right Path.roomForName few
    omega

/-- At and below the root nothing is found. -/
theorem Unmade.locate {names : List String} (plain : ∀ name ∈ names, Plain name)
    (few : names.length ≤ maxDepth) :
    origin.locate (root.trimmed ++ names) = .error .noEntry
      ∨ ∃ place, origin.locate (root.trimmed ++ names) = .ok ⟨place, none, false⟩ :=
  unmade.unbuilt.locate plain (unmade.checkPath_below plain few)

section

variable {names : List String} (plain : ∀ name ∈ names, Plain name) (few : names.length ≤ maxDepth)
include plain few

theorem Unmade.status : origin.status (root.trimmed ++ names) = .error .noEntry := by
  unfold Disk.status
  rcases unmade.locate plain few with missing | ⟨place, missing⟩ <;> rw [missing] <;> rfl

theorem Unmade.read : origin.read (root.trimmed ++ names) = .error .noEntry := by
  unfold Disk.read
  rcases unmade.locate plain few with missing | ⟨place, missing⟩ <;> rw [missing] <;> rfl

theorem Unmade.list : origin.list (root.trimmed ++ names) = .error .noEntry := by
  unfold Disk.list
  rcases unmade.locate plain few with missing | ⟨place, missing⟩ <;> rw [missing] <;> rfl

variable (nonempty : names ≠ [])
include nonempty

/-- Below the root nothing can be put, for there is no directory. -/
theorem Unmade.locateEntry : origin.locateEntry (root.trimmed ++ names) = .error .noEntry := by
  obtain ⟨above, last, rfl⟩ := (List.eq_nil_or_concat' names).resolve_left nonempty
  have isPath := unmade.checkPath_below plain few
  rw [unmade.trimmed_root] at isPath ⊢
  obtain ⟨front, base, first, rest, identity, rfl, _, arrives, plainRoot, nothing⟩ := unmade.missing
  have plainAll : ∀ name ∈ first :: (rest ++ above), Plain name := by
    intro name member
    rw [← List.cons_append] at member
    exact (List.mem_append.mp member).elim (plainRoot name)
      fun inAbove => plain name (List.mem_append_left _ inAbove)
  have walked := walk_unmade arrives nothing plainAll
  rw [← List.cons_append, ← List.append_assoc] at walked
  rw [← List.append_assoc] at isPath ⊢
  rw [Path.locateEntry_concat (plain last (by simp)) isPath, walked]
  split <;> rfl

theorem Unmade.unlink : origin.unlink (root.trimmed ++ names) = .error .noEntry := by
  unfold Disk.unlink
  rw [unmade.locateEntry plain few nonempty]
  rfl

theorem Unmade.rename (target : Path) :
    origin.rename (root.trimmed ++ names) target = .error .noEntry := by
  unfold Disk.rename
  rw [unmade.locateEntry plain few nonempty]
  rfl

end

/-- There is nothing below the root. -/
theorem Unmade.shows : Shows origin home (fun _ => none) origin where
  sound := unmade.sound
  outside _ _ := rfl
  grown := Nat.le_refl _
  shows names _ := unmade.unbuilt.free names
  top := rfl

/-- A root that is yet to be made stays so as long as nothing comes to lie anywhere. -/
theorem Unmade.of_shows {disk : Disk} (shows : Shows origin home (fun _ => none) disk) :
    Unmade disk root home := by
  have same (place : Place) : disk.entry? place = origin.entry? place := by
    by_cases isBelow : ∃ names, names ≠ [] ∧ place = home ++ names
    · obtain ⟨names, nonempty, rfl⟩ := isBelow
      rw [shows.shows names nonempty, unmade.shows.shows names nonempty]
    · exact shows.outside place fun names nonempty isPlace => isBelow ⟨names, nonempty, isPlace⟩
  have extended : Extends origin disk := fun place entry found => (same place).trans found
  obtain ⟨front, base, first, rest, identity, isRoot, isHome, arrives, plain, nothing⟩ :=
    unmade.missing
  exact ⟨unmade.resolved, shows.sound, fun place entry found => by
    rw [same] at found ⊢
    exact unmade.rooted place entry found, unmade.isPath, unmade.room,
    front, base, first, rest, identity, isRoot, isHome, walk_extends extended arrives, plain,
    (same _).trans nothing⟩

/-- **Once it is made a root is an empty directory**, and all that has changed is that directories
lead there; a directory in it is created as if the root had been there before. -/
theorem Unmade.exists_vacant :
    ∃ made, origin.makeDirectories root = (.ok none, made) ∧ Vacant made root home
      ∧ (∀ place, made.entry? place ≠ origin.entry? place → below place home = true
          ∧ origin.entry? place = none ∧ ∃ identity, made.entry? place = some (.directory identity))
      ∧ ∀ name, Plain name → origin.makeDirectories (root.trimmed ++ [name])
          = made.makeDirectories (root.trimmed ++ [name]) := by
  have isPathBelow {name : String} (plain : Plain name) :
      checkPath (root.trimmed ++ [name]) = .ok () :=
    unmade.checkPath_below (by simpa using plain) (show 1 ≤ 3 by decide)
  have trimmed := unmade.trimmed_root
  obtain ⟨resolved, sound, rooted, isPath, room, front, base, first, rest, identity, rfl, rfl,
    arrives, plain, nothing⟩ := unmade
  have standing := standing_made arrives nothing sound rooted resolved plain isPath
  have vacant : Vacant (origin.withDirectories base (first :: rest)) (front ++ first :: rest)
      (base ++ first :: rest) :=
    ⟨resolved, sound_withDirectories sound, standing.rooted, standing.leads, room,
      fun names nonempty => empty_made nothing sound rooted rest nonempty⟩
  refine ⟨_, makeDirectories_eq isPath
    (ensureAll_unmade arrives nothing sound rooted plain isPath false), vacant,
    fun place changed => changed_made nothing sound rooted rest changed, fun name plainName => ?_⟩
  have made := vacant.shows.makeDirectories_free vacant (Branch.leads_nil _)
    (show ∀ other ∈ [] ++ [name], Plain other by simpa using plainName) (show 0 < 3 by decide) rfl
  have below := isPathBelow plainName
  rw [trimmed] at below made ⊢
  rw [show front ++ first :: rest ++ [name] = front ++ first :: (rest ++ [name]) by simp] at below ⊢
  have plainAll : ∀ other ∈ first :: (rest ++ [name]), Plain other := by
    intro other member
    rw [← List.cons_append] at member
    rcases List.mem_append.mp member with inRest | isName
    · exact plain other inRest
    · exact List.mem_singleton.mp isName ▸ plainName
  rw [makeDirectories_eq below
    (ensureAll_unmade arrives nothing sound rooted plainAll below false)]
  rw [List.nil_append, List.append_assoc, List.cons_append] at made
  rw [made, ← List.cons_append, withDirectories_concat]

end

end DocStore.Disk
