import DocStore.Proofs.Disk.Unmade
/-!
# Files in one directory

A disk is watched from the moment at which a path leads to a directory.  `Folder` says that nothing
else has changed since but entries that were missing in the directory, and which entries the names
in it have now.  New files, what is written to them, second entries of them and their removal change
the entry of one name (`Folder.addFile`, `Folder.write`, `Folder.put`, `Folder.without`).
-/

set_option autoImplicit false

namespace DocStore.Disk

/-- Nothing has changed on a disk but entries that were missing in a directory; the names in the
directory have some entries now. -/
structure Folder (origin : Disk) (home : Place) (files : String → Option Entry) (disk : Disk) :
    Prop where
  sound : Sound disk
  grown : origin.nextIdentity ≤ disk.nextIdentity
  inside : ∀ name, disk.entry? (home ++ [name]) = files name
  outside : ∀ place, (∀ name, place ≠ home ++ [name]) → disk.entry? place = origin.entry? place
  kept : ∀ name entry, origin.entry? (home ++ [name]) = some entry → files name = some entry

/-- The entries of the names in a directory. -/
def filesAt (disk : Disk) (home : Place) (name : String) : Option Entry :=
  disk.entry? (home ++ [name])

theorem Folder.start {origin : Disk} (sound : Sound origin) (home : Place) :
    Folder origin home (origin.filesAt home) origin :=
  ⟨sound, Nat.le_refl _, fun _ => rfl, fun _ _ => rfl, fun _ _ found => found⟩

namespace Folder

variable {origin : Disk} {home : Place} {files : String → Option Entry} {disk : Disk}
  (folder : Folder origin home files disk)
include folder

/-- What was there at first is still there. -/
theorem extended : Extends origin disk := by
  intro place entry found
  by_cases isInside : ∃ name, place = home ++ [name]
  · obtain ⟨name, rfl⟩ := isInside
    rw [folder.inside]
    exact folder.kept name entry found
  · rw [folder.outside place fun name isPlace => isInside ⟨name, isPlace⟩, found]

/-- What is missing now was missing at first. -/
theorem missing {name : String} (free : files name = none) : origin.entry? (home ++ [name]) = none := by
  cases found : origin.entry? (home ++ [name]) with
  | none => rfl
  | some entry => rw [folder.kept name entry found] at free; cases free

/-- The identity of a file in the directory has been given. -/
theorem lt_nextIdentity {name : String} {entry : Entry} (found : files name = some entry)
    {identity : Nat} (isIdentity : entry.identity? = some identity) :
    identity < disk.nextIdentity := by
  rw [← folder.inside] at found
  exact folder.sound.lt_nextIdentity (by simp) found isIdentity

/-! ## Changes -/

/-- An entry is put where none was at first. -/
theorem put {name : String} (free : origin.entry? (home ++ [name]) = none) {entry : Entry}
    (isGiven : ∀ identity ∈ entry.identity?, identity < disk.nextIdentity) :
    Folder origin home (Function.update files name (some entry)) (disk.put (home ++ [name]) entry) := by
  have nonempty : home ++ [name] ≠ [] := by simp
  refine ⟨sound_put folder.sound nonempty isGiven, folder.grown, fun other => ?_,
    fun place isOutside => ?_, fun other old found => ?_⟩
  · simp only [entry?_put folder.sound nonempty isGiven, Function.update_apply, folder.inside,
      List.append_cancel_left_eq, List.cons.injEq, and_true]
  · rw [entry?_put folder.sound nonempty isGiven, if_neg (isOutside name), folder.outside _ isOutside]
  · rw [Function.update_of_ne]
    · exact folder.kept other old found
    · rintro rfl
      rw [free] at found
      cases found

theorem addIdentity :
    Folder origin home files { disk with nextIdentity := disk.nextIdentity + 1 } :=
  ⟨sound_nextIdentity folder.sound, Nat.le_succ_of_le folder.grown, folder.inside, folder.outside,
    folder.kept⟩

theorem addFile {name : String} (free : files name = none) :
    Folder origin home (Function.update files name (some (.file disk.nextIdentity "")))
      (disk.addFile (home ++ [name])) :=
  folder.addIdentity.put (folder.missing free) (by simp [Entry.identity?])

/-- A file that is the only one of its identity, and was not there at first, gets a content. -/
theorem write (soundOrigin : Sound origin) {name : String} {identity : Nat} {old : String}
    (isFile : files name = some (.file identity old)) (isNew : origin.nextIdentity ≤ identity)
    (only : ∀ other entry, files other = some entry → entry.identity? = some identity →
      other = name) (content : String) :
    Folder origin home (Function.update files name (some (.file identity content)))
      (disk.setContent identity content) := by
  have unchanged {place : Place} {entry : Entry} (found : origin.entry? place = some entry) :
      entry.written identity content = entry := by
    by_cases isTop : place = []
    · subst isTop
      cases found
      rfl
    · refine Entry.written_of_ne (fun isIdentity => ?_) content
      have isOld := soundOrigin.lt_nextIdentity isTop found isIdentity
      omega
  refine ⟨sound_setContent folder.sound identity content, folder.grown, fun other => ?_,
    fun place isOutside => ?_, fun other entry found => ?_⟩
  · rw [entry?_setContent, folder.inside]
    by_cases here : other = name
    · simp [here, isFile, Entry.written]
    · rw [Function.update_of_ne here]
      cases found : files other with
      | none => rfl
      | some entry =>
          rw [Option.map_some, Entry.written_of_ne fun isIdentity =>
            here (only other entry found isIdentity)]
  · rw [entry?_setContent, folder.outside place isOutside]
    cases found : origin.entry? place with
    | none => rfl
    | some entry => rw [Option.map_some, unchanged found]
  · have isThere := folder.kept other entry found
    rw [Function.update_of_ne, isThere]
    rintro rfl
    rw [isFile] at isThere
    cases isThere
    have isOld := soundOrigin.lt_nextIdentity (by simp) found rfl
    omega

/-- An entry is removed that was not there at first. -/
theorem without (rooted : Rooted origin) {name : String}
    (free : origin.entry? (home ++ [name]) = none) :
    Folder origin home (Function.update files name none) (disk.without (home ++ [name])) := by
  have nonempty : home ++ [name] ≠ [] := by simp
  refine ⟨sound_without folder.sound _, folder.grown, fun other => ?_, fun place isOutside => ?_,
    fun other old found => ?_⟩
  · rw [entry?_without folder.sound nonempty]
    by_cases here : other = name
    · rw [here, Function.update_self, if_pos (below_iff.mpr ⟨[], by simp⟩)]
    · rw [Function.update_of_ne here, if_neg, folder.inside]
      rw [below_iff]
      rintro ⟨rest, same⟩
      have names : [other] = name :: rest := by simpa using same
      exact here (List.cons.inj names).1
  · rw [entry?_without folder.sound nonempty]
    split
    next isBelow =>
      obtain ⟨rest, rfl⟩ := below_iff.mp isBelow
      exact (rooted.nothing_below free rest).symm
    next => exact folder.outside place isOutside
  · rw [Function.update_of_ne]
    · exact folder.kept other old found
    · rintro rfl
      rw [free] at found
      cases found

/-! ## Calls -/

section

variable {directory : Path} (standing : Standing origin directory home)
include standing

theorem makeDirectories : disk.makeDirectories directory = (.ok none, disk) := by
  obtain ⟨identity, isDirectory⟩ := standing.status_self folder.extended
  exact makeDirectories_eq standing.checkPath (ensureAll_there false standing.resolved.nonempty
    (standing.makeDirectory_self folder.extended) isDirectory)

variable {name : String} (plain : Plain name)
  (isPath : checkPath (directory.trimmed ++ [name]) = .ok ())
include plain isPath

theorem locateEntry :
    disk.locateEntry (directory.trimmed ++ [name]) = .ok ⟨home ++ [name], files name, false⟩ := by
  rw [standing.locateEntry_name folder.extended plain isPath, folder.inside]

theorem openEmpty (free : files name = none) :
    disk.openEmpty (directory.trimmed ++ [name])
      = .ok (disk.nextIdentity, disk.addFile (home ++ [name])) := by
  unfold Disk.openEmpty
  rw [standing.locate_name folder.extended plain isPath (by simp [folder.inside, free]),
    folder.inside, free]
  rfl

theorem read_file {identity : Nat} {content : String}
    (isFile : files name = some (.file identity content)) :
    disk.read (directory.trimmed ++ [name]) = .ok content := by
  unfold Disk.read
  rw [standing.locate_name folder.extended plain isPath (by simp [folder.inside, isFile]),
    folder.inside, isFile]
  rfl

theorem read_free (free : files name = none) :
    disk.read (directory.trimmed ++ [name]) = .error .noEntry := by
  unfold Disk.read
  rw [standing.locate_name folder.extended plain isPath (by simp [folder.inside, free]),
    folder.inside, free]
  rfl

theorem unlink {identity : Nat} {content : String}
    (isFile : files name = some (.file identity content)) :
    disk.unlink (directory.trimmed ++ [name]) = .ok (disk.without (home ++ [name])) := by
  unfold Disk.unlink
  rw [folder.locateEntry standing plain isPath, isFile]
  rfl

/-- A file gets a second entry where none is, and nowhere else. -/
theorem addLink {source : String} (plainSource : Plain source)
    (isPathSource : checkPath (directory.trimmed ++ [source]) = .ok ()) {identity : Nat}
    {content : String} (isFile : files source = some (.file identity content)) :
    disk.addLink (directory.trimmed ++ [source]) (directory.trimmed ++ [name])
      = if (files name).isSome then .error .exists
        else .ok (disk.put (home ++ [name]) (.file identity content)) := by
  unfold Disk.addLink
  rw [folder.locateEntry standing plainSource isPathSource, isFile]
  simp only [bind, Except.bind]
  rw [folder.locateEntry standing plain isPath]
  cases files name <;> simp [Entry.isDirectory]

end

end Folder

end DocStore.Disk
