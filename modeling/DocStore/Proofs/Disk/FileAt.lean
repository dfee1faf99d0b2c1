import DocStore.Proofs.Disk.Calls
import DocStore.Proofs.Disk.Order
/-!
# Which file a path leads to

A name that a file is known by is looked at from outside: `fileAt?` tells the identity of the file
that a path leads to, if it leads to one.  A file that is opened as a new one is found then and was
not found before (`openNew_fileAt?`), what is found can be removed (`unlink_fileAt?`), and writing
changes nothing about what is found (`fileAt?_setContent`).  Directories that are made leave what is
found (`Builds.fileAt?`), and bring nothing into sight on the way to a resolved path
(`fileAt?_makeDirectories`).
-/

set_option autoImplicit false

namespace DocStore.Disk

/-- The file that a path leads to, where a link at its end is not followed. -/
def fileAt? (disk : Disk) (path : Path) : Option Nat :=
  match disk.locateEntry path with
  | .ok ⟨_, some (.file identity _), false⟩ => some identity
  | _ => none

theorem fileAt?_eq_some_iff {disk : Disk} {path : Path} {identity : Nat} :
    disk.fileAt? path = some identity
      ↔ ∃ place content,
        disk.locateEntry path = .ok ⟨place, some (.file identity content), false⟩ := by
  unfold fileAt?
  split
  next place other content located => simp [located]
  next noFile =>
    refine iff_of_false (by simp) ?_
    rintro ⟨place, content, located⟩
    exact noFile _ _ _ located

/-! ## Disks that have got more entries -/

theorem locateEntry_extends {before after : Disk} (extended : Extends before after) {path : Path}
    {target : Target} (located : before.locateEntry path = .ok target) :
    after.locateEntry path = .ok ⟨target.place, after.entry? target.place, target.slash⟩ := by
  obtain ⟨isPath, leads⟩ := locateEntry_eq_ok_iff.mp located
  refine locateEntry_eq_ok_iff.mpr ⟨isPath, ?_⟩
  rcases leads with ⟨none, rfl⟩ | ⟨front, name, directory, identity, isConcat, walked, short, rfl⟩
  · exact .inl ⟨none, rfl⟩
  · exact .inr ⟨front, name, directory, identity, isConcat, walk_extends extended walked, short,
      rfl⟩

/-- A file that a path leads to is still there when there is more. -/
theorem Extends.fileAt? {before after : Disk} (extended : Extends before after) {path : Path}
    {identity : Nat} (found : before.fileAt? path = some identity) :
    after.fileAt? path = some identity := by
  obtain ⟨place, content, located⟩ := fileAt?_eq_some_iff.mp found
  have there := (locateEntry_lies located).entry.symm
  have located' := locateEntry_extends extended located
  rw [extended _ _ there] at located'
  exact fileAt?_eq_some_iff.mpr ⟨place, content, located'⟩

/-! ## Opening, writing and removing -/

theorem entry?_addFile {disk : Disk} (sound : Sound disk) {place : Place} (nonempty : place ≠ [])
    (other : Place) :
    Disk.entry? (disk.addFile place) other
      = if other = place then some (.file disk.nextIdentity "") else disk.entry? other :=
  entry?_put (sound_nextIdentity sound) nonempty (by simp [Entry.identity?]) other

section

variable {disk : Disk} (inOrder : InOrder disk) {path : Path}
include inOrder

/-- A file is found at a path once it has been opened there as a new one, and none before. -/
theorem openNew_fileAt? {handle : Nat} {disk' : Disk}
    (opens : disk.openNew path = .ok (handle, disk')) :
    disk.fileAt? path = none ∧ disk'.fileAt? path = some handle := by
  unfold openNew at opens
  cases located : disk.locateEntry path with
  | error errno =>
      rw [located] at opens
      cases opens
  | ok target =>
      rw [located] at opens
      obtain ⟨place, entry, slash⟩ := target
      dsimp only [bind, Except.bind] at opens
      split at opens
      · cases opens
      next noSlash =>
      cases entry with
      | some entry => cases opens
      | none =>
          cases opens
          obtain rfl : slash = false := by simpa using noSlash
          have lies := locateEntry_lies located
          have free : disk.entry? place = none := lies.entry.symm
          have nonempty : place ≠ [] := lies.ne_nil rfl
          have found? := entry?_addFile inOrder.sound nonempty
          have extended : Extends disk (disk.addFile place) := by
            intro other entry there
            rw [found?, if_neg, there]
            rintro rfl
            rw [free] at there
            cases there
          have located' := locateEntry_extends extended located
          rw [found?, if_pos rfl] at located'
          refine ⟨?_, fileAt?_eq_some_iff.mpr ⟨place, "", located'⟩⟩
          rw [fileAt?, located]

omit inOrder in
/-- A file that is opened as a new one gets the next identity. -/
theorem openNew_handle {handle : Nat} {disk' : Disk}
    (opens : disk.openNew path = .ok (handle, disk')) : handle = disk.nextIdentity := by
  unfold openNew at opens
  dsimp only [bind, Except.bind] at opens
  repeat' split at opens
  all_goals cases opens
  rfl

/-- A file that is found can be removed, and none is found then. -/
theorem unlink_fileAt? {identity : Nat} (found : disk.fileAt? path = some identity) :
    ∃ disk', disk.unlink path = .ok disk' ∧ disk'.fileAt? path = none := by
  obtain ⟨place, content, located⟩ := fileAt?_eq_some_iff.mp found
  have there := (locateEntry_lies located).entry.symm
  have nonempty : place ≠ [] := by
    rintro rfl
    cases there
  have found? := entry?_without inOrder.sound nonempty
  have less : Extends (disk.without place) disk := by
    intro other entry stays
    rw [found?] at stays
    split at stays
    · cases stays
    · exact stays
  refine ⟨disk.without place, by rw [unlink, located]; rfl, ?_⟩
  by_contra isFound
  obtain ⟨identity', isFound⟩ := Option.ne_none_iff_exists'.mp isFound
  obtain ⟨place', content', located'⟩ := fileAt?_eq_some_iff.mp isFound
  have isThere := (locateEntry_lies located').entry.symm
  have same := locateEntry_extends less located'
  rw [located] at same
  obtain rfl : place = place' := congrArg Target.place (Except.ok.inj same)
  rw [found?, if_pos (below_iff.mpr ⟨[], (List.append_nil _).symm⟩)] at isThere
  cases isThere

end

/-- What a target tells after a file of an identity has got a content. -/
def Target.written (identity : Nat) (content : String) (target : Target) : Target :=
  { target with entry := target.entry.map (Entry.written identity content) }

theorem walkWith_setContent {disk : Disk} {identity : Nat} {content : String}
    {follow follow' : Place → List String → Except Errno Target}
    (follows : ∀ here path, follow' here path
      = (follow here path).map (Target.written identity content)) (here : Place)
    (path : List String) :
    walkWith (disk.setContent identity content) follow' here path
      = (walkWith disk follow here path).map (Target.written identity content) := by
  induction path generalizing here with
  | nil => rw [walkWith, walkWith, entry?_setContent]; rfl
  | cons name rest ih =>
      by_cases blank : name = "" ∨ name = "."
      · rw [walkWith_blank blank, walkWith_blank blank, ih]
      by_cases above : name = ".."
      · rw [walkWith_above blank above, walkWith_above blank above, ih]
      by_cases long : maxNameBytes < name.utf8ByteSize
      · rw [walkWith_long blank above long, walkWith_long blank above long]
        rfl
      rw [walkWith_name blank above long, walkWith_name blank above long, entry?_setContent]
      rcases disk.entry? (here ++ [name]) with _ | ⟨_, _⟩ | _ | target
      · cases endsHere rest <;> rfl
      · cases endsHere rest <;> rfl
      · exact ih _
      · simp only [Option.map_some, Entry.written, follows]
        split
        · rfl
        · split <;> rfl

/-- Writing a file does not change where paths lead. -/
theorem walk_setContent (disk : Disk) (identity : Nat) (content : String) (links : Nat)
    (here : Place) (path : List String) :
    walk (disk.setContent identity content) links here path
      = (walk disk links here path).map (Target.written identity content) := by
  induction links generalizing here path with
  | zero =>
      have follows (here : Place) (path : List String) :
          (.error .loop : Except Errno Target)
            = (Except.error .loop).map (Target.written identity content) := rfl
      exact walkWith_setContent follows here path
  | succ links ih => exact walkWith_setContent ih here path

theorem locateEntry_setContent (disk : Disk) (identity : Nat) (content : String) (path : Path) :
    (disk.setContent identity content).locateEntry path
      = (disk.locateEntry path).map (Target.written identity content) := by
  unfold locateEntry
  cases checkPath path with
  | error errno => rfl
  | ok =>
      simp only [bind, Except.bind]
      cases path.trimmed.getLast? with
      | none => rfl
      | some name =>
          simp only [walk_setContent]
          cases walk disk maxLinks [] path.trimmed.dropLast with
          | error errno => rfl
          | ok directory =>
              obtain ⟨place, _ | _ | _ | _, slash⟩ := directory
              · rfl
              · rfl
              · simp only [Except.map, Target.written, Option.map_some, Entry.written]
                split
                · rfl
                · rw [entry?_setContent]
              · rfl

/-- Writing a file changes nothing about which file a path leads to. -/
theorem fileAt?_setContent (disk : Disk) (identity : Nat) (content : String) (path : Path) :
    (disk.setContent identity content).fileAt? path = disk.fileAt? path := by
  unfold fileAt?
  rw [locateEntry_setContent]
  cases disk.locateEntry path with
  | error errno => rfl
  | ok target => obtain ⟨place, _ | _ | _ | _, _ | _⟩ := target <;> rfl

/-! ## Making directories -/

/-- Nothing has been added to a disk but directories. -/
structure Builds (before after : Disk) : Prop where
  extended : Extends before after
  made : ∀ place entry, after.entry? place = some entry →
    before.entry? place = some entry ∨ ∃ identity, entry = .directory identity

namespace Builds

theorem refl (disk : Disk) : Builds disk disk := ⟨.refl disk, fun _ _ found => .inl found⟩

theorem trans {first second third : Disk} (builds : Builds first second)
    (builds' : Builds second third) : Builds first third where
  extended _ _ found := builds'.extended _ _ (builds.extended _ _ found)
  made place entry found := (builds'.made place entry found).elim (builds.made place entry) .inr

end Builds

section

variable {disk : Disk} (inOrder : InOrder disk)
include inOrder

/-- A directory is made at a free place, with a name in a directory. -/
theorem exists_made {path : Path} {made : Disk} (makes : disk.makeDirectory path = .ok made) :
    Builds disk made ∧ ∃ target, disk.locateEntry path = .ok target ∧ target.entry = none
      ∧ made = disk.addDirectory target.place := by
  unfold makeDirectory at makes
  cases located : disk.locateEntry path with
  | error errno =>
      rw [located] at makes
      cases makes
  | ok target =>
      rw [located] at makes
      cases free : target.entry with
      | some entry =>
          simp only [bind, Except.bind, free] at makes
          cases makes
      | none =>
          simp only [bind, Except.bind, free] at makes
          obtain rfl := Except.ok.inj makes
          have lies := locateEntry_lies located
          have found? := entry?_addDirectory inOrder.sound (lies.ne_nil free)
          refine ⟨⟨fun place entry there => ?_, fun place entry there => ?_⟩, target, rfl, free, rfl⟩
          · rw [found?, if_neg, there]
            rintro rfl
            rw [← lies.entry, free] at there
            cases there
          · rw [found?] at there
            split at there
            · exact .inr ⟨_, (Option.some.inj there).symm⟩
            · exact .inl there

theorem builds_ensureDirectory (path : Path) (pending : Bool) :
    Builds disk (disk.ensureDirectory path pending).2 := by
  unfold ensureDirectory
  split
  next makes => exact (exists_made inOrder makes).1
  next => exact .refl disk

theorem builds_ensureAll (pending : Bool) (names : List String) :
    Builds disk (disk.ensureAll pending names).2 := by
  induction names generalizing pending with
  | nil => exact .refl disk
  | cons name above ih =>
      unfold ensureAll
      dsimp only
      split
      · split
        next made =>
          have builds := ih true
          have inOrder' := inOrder.ensureAll true above
          rw [made] at builds inOrder'
          exact builds.trans (builds_ensureDirectory inOrder' _ _)
        next => exact ih true
      · exact builds_ensureDirectory inOrder _ _

theorem builds_makeDirectories (path : Path) : Builds disk (disk.makeDirectories path).2 := by
  unfold makeDirectories
  split
  · exact builds_ensureAll inOrder false _
  · exact .refl disk

end

/-- A walk goes on from a directory to a directory in it. -/
theorem walk_concat {disk : Disk} {links : Nat} {front : List String} {here place : Place}
    {identity identity' : Nat}
    (walked : walk disk links here front = .ok ⟨place, some (.directory identity), false⟩)
    {name : String} (meaningful : name ≠ "" ∧ name ≠ "." ∧ name ≠ "..")
    (short : ¬ maxNameBytes < name.utf8ByteSize)
    (isDirectory : disk.entry? (place ++ [name]) = some (.directory identity')) :
    walk disk links here (front ++ [name])
      = .ok ⟨place ++ [name], some (.directory identity'), false⟩ := by
  obtain ⟨links', goesOn⟩ := walk_append (.refl disk) links front here walked
  rw [goesOn, walk_eq,
    walkWith_name (not_or.mpr ⟨meaningful.1, meaningful.2.1⟩) meaningful.2.2 short, isDirectory]
  simp only [walkWith, isDirectory]

section

variable {disk : Disk} (inOrder : InOrder disk)
include inOrder

/-- A directory that a path leads to once a directory has been made at its end: the path led there
before, or the directory was not there. -/
theorem walk_of_ensureDirectory {front : Path} {name : String}
    (meaningful : name ≠ "" ∧ name ≠ "." ∧ name ≠ "..") {pending : Bool} {place : Place}
    {identity : Nat}
    (walked : walk (disk.ensureDirectory (front ++ [name]) pending).2 maxLinks [] (front ++ [name])
      = .ok ⟨place, some (.directory identity), false⟩) (there : disk.entry? place ≠ none) :
    walk disk maxLinks [] (front ++ [name]) = .ok ⟨place, some (.directory identity), false⟩ := by
  unfold ensureDirectory at walked
  split at walked
  next made makes =>
    obtain ⟨builds, target, located, free, rfl⟩ := exists_made inOrder makes
    have lies := locateEntry_lies located
    have isFree : disk.entry? target.place = none := lies.entry.symm.trans free
    obtain ⟨_, leads⟩ := locateEntry_eq_ok_iff.mp located
    rw [Path.trimmed_concat front meaningful.1] at leads
    rcases leads with ⟨none, _⟩ | ⟨front', name', directory, identity', same, inFront, short, rfl⟩
    · simp at none
    obtain ⟨rfl, isName⟩ := List.append_inj' same rfl
    obtain rfl := (List.cons.inj isName).1
    have isMade := entry?_addDirectory inOrder.sound (lies.ne_nil free) (directory ++ [name])
    rw [if_pos rfl] at isMade
    have goesOn := walk_concat (walk_extends builds.extended inFront) meaningful short isMade
    rw [walked] at goesOn
    obtain rfl : place = directory ++ [name] := congrArg Target.place (Except.ok.inj goesOn)
    exact absurd isFree there
  next => exact walked

/-- The same for all directories on the way. -/
theorem walk_of_ensureAll {front : Path}
    (meaningful : ∀ name ∈ front, name ≠ "" ∧ name ≠ "." ∧ name ≠ "..")
    (isPath : front ≠ [] → checkPath front = .ok ()) {pending : Bool} {place : Place}
    {identity : Nat}
    (walked : walk (disk.ensureAll pending front.reverse).2 maxLinks [] front
      = .ok ⟨place, some (.directory identity), false⟩) (there : disk.entry? place ≠ none) :
    walk disk maxLinks [] front = .ok ⟨place, some (.directory identity), false⟩ := by
  induction front using List.reverseRecOn generalizing pending place identity with
  | nil => exact walked
  | append_singleton front name ih =>
      have isName := meaningful name (by simp)
      have isPath' : front ≠ [] → checkPath front = .ok () := fun nonempty =>
        Path.checkPath_of_append nonempty (isPath (by simp))
      have ih (pending : Bool) {place : Place} {identity : Nat} := @ih
        (fun other member => meaningful other (List.mem_append_left _ member)) isPath' pending place
        identity
      rw [ensureAll_reverse] at walked
      split at walked
      next missing =>
        -- The directories above have been made; what is missing still decides what is found.
        have builds := builds_ensureAll inOrder true front.reverse
        have inOrder' := inOrder.ensureAll true front.reverse
        have ih := @ih true
        generalize disk.ensureAll true front.reverse = above at walked builds inOrder' ih
        obtain ⟨stopped, middle⟩ := above
        dsimp only at builds inOrder' ih
        have inMiddle : walk middle maxLinks [] (front ++ [name])
            = .ok ⟨place, some (.directory identity), false⟩ := by
          obtain ⟨entry, found⟩ := Option.ne_none_iff_exists'.mp there
          cases stopped with
          | some obstacle => exact walked
          | none =>
              refine walk_of_ensureDirectory inOrder' isName walked ?_
              rw [builds.extended _ _ found]
              simp
        obtain ⟨directory, identity', inFront, short, entry, found⟩ :=
          walk_dropLast inOrder'.rooted isName.1 isName.2.1 isName.2.2 maxLinks front [] ⟨0, rfl⟩
            inMiddle
        exfalso
        by_cases isNew : disk.entry? directory = none
        · have nothing : disk.entry? (directory ++ [name]) = none := by
            by_contra isFound
            obtain ⟨old, isOld⟩ := Option.ne_none_iff_exists'.mp isFound
            obtain ⟨_, isDirectory⟩ := inOrder.rooted.directory_above isOld
            rw [isNew] at isDirectory
            cases isDirectory
          rcases builds.made _ _ found with old | ⟨identity'', rfl⟩
          · rw [nothing] at old
            cases old
          · have goesOn := walk_concat inFront isName short found
            rw [inMiddle] at goesOn
            obtain rfl : place = directory ++ [name] := congrArg Target.place (Except.ok.inj goesOn)
            exact there nothing
        · have located : disk.locateEntry (front ++ [name])
              = .ok ⟨directory ++ [name], disk.entry? (directory ++ [name]), false⟩ := by
            refine locateEntry_eq_ok_iff.mpr ⟨isPath (by simp), .inr ⟨front, name, directory,
              identity', Path.trimmed_concat front isName.1, ih inFront isNew, short, ?_⟩⟩
            simp [isName.1]
          rw [makeDirectory, located] at missing
          cases isThere : disk.entry? (directory ++ [name]) <;>
            simp [isThere, bind, Except.bind] at missing
      next => exact walk_of_ensureDirectory inOrder isName walked there

/-- **Making directories** on the way to a resolved path brings no file into sight. -/
theorem fileAt?_makeDirectories {path : Path} (resolved : path.Resolved)
    (nothing : disk.fileAt? path = none) :
    (disk.makeDirectories path.parent).2.fileAt? path = none := by
  by_contra isFound
  obtain ⟨identity, isFound⟩ := Option.ne_none_iff_exists'.mp isFound
  obtain ⟨place, content, located⟩ := fileAt?_eq_some_iff.mp isFound
  have builds := builds_makeDirectories inOrder path.parent
  have isThere := (locateEntry_lies located).entry.symm
  have isOld : disk.entry? place = some (.file identity content) := by
    rcases builds.made _ _ isThere with old | ⟨_, isDirectory⟩
    · exact old
    · cases isDirectory
  obtain ⟨isPath, leads⟩ := locateEntry_eq_ok_iff.mp located
  rcases leads with ⟨_, isTop⟩ | ⟨front, name, directory, identity', isConcat, inFront, short, same⟩
  · cases isTop
  obtain ⟨rfl, _, isSlash⟩ := Target.mk.inj same
  have meaningful := Path.meaningful_trimmed resolved
  rw [isConcat] at meaningful
  have isWhole : path = front ++ [name] := by
    rw [← isConcat]
    rcases Path.eq_top_or_trimmed_eq resolved with rfl | whole
    · cases isSlash
    · exact whole.symm
  have isDirectory := inOrder.rooted.directory_above isOld
  have inFront' :
      walk disk maxLinks [] front = .ok ⟨directory, some (.directory identity'), false⟩ := by
    rcases List.eq_nil_or_concat' front with rfl | ⟨above, last, rfl⟩
    · exact inFront
    have nonempty : above ++ [last] ≠ [] := by simp
    have isParent : path.parent = above ++ [last] := by
      rw [isWhole]
      exact Path.parent_concat nonempty (meaningful name (by simp)).1
    have isPath' : checkPath (above ++ [last]) = .ok () :=
      Path.checkPath_of_append nonempty (isWhole ▸ isPath)
    rw [isParent, makeDirectories, isPath'] at inFront
    refine walk_of_ensureAll inOrder
      (fun other member => meaningful other (List.mem_append_left _ member)) (fun _ => isPath')
      inFront ?_
    obtain ⟨_, there⟩ := isDirectory
    simp [there]
  have located' : disk.locateEntry path
      = .ok ⟨directory ++ [name], some (.file identity content), false⟩ :=
    locateEntry_eq_ok_iff.mpr ⟨isPath, .inr ⟨front, name, directory, identity', isConcat, inFront',
      short, by rw [isOld, ← isSlash]⟩⟩
  rw [fileAt?, located'] at nothing
  cases nothing

end

end DocStore.Disk
