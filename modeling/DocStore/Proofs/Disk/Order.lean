import DocStore.Proofs.Disk.Path
import Mathlib.Data.List.Induction
/-!
# Disks stay in order

A disk is in order when its entries are, and each of them lies in a directory (`InOrder`).  Where a
path leads on such a disk lies in a directory too, even if nothing is there (`walk_lies`,
`locateEntry_lies`).  Every kind of change keeps a disk in order under a condition on the places
that it is made at, and every call meets the condition (`InOrder.answer`), whatever it is made on
and whether it succeeds.
-/

set_option autoImplicit false

namespace DocStore.Disk

/-- A disk in order, every entry of which lies in a directory. -/
structure InOrder (disk : Disk) : Prop where
  sound : Sound disk
  rooted : Rooted disk

theorem inOrder_empty : InOrder empty := ⟨sound_empty, rooted_empty⟩

/-! ## Where paths lead -/

/-- A target tells what is at its place, and the place lies in a directory. -/
structure Target.Lies (disk : Disk) (target : Target) : Prop where
  entry : target.entry = disk.entry? target.place
  inside : ∃ identity, disk.entry? target.place.dropLast = some (.directory identity)

section

variable {disk : Disk} (rooted : Rooted disk)
include rooted

theorem walkWith_lies {follow : Place → List String → Except Errno Target}
    (follows : ∀ here path target, (∃ identity, disk.entry? here = some (.directory identity)) →
      follow here path = .ok target → target.Lies disk)
    {here : Place} (isDirectory : ∃ identity, disk.entry? here = some (.directory identity))
    {path : List String} {target : Target} (arrives : walkWith disk follow here path = .ok target) :
    target.Lies disk := by
  induction path generalizing here with
  | nil =>
      obtain rfl := Except.ok.inj arrives
      obtain ⟨identity, found⟩ := isDirectory
      exact ⟨rfl, rooted _ _ found⟩
  | cons name rest ih =>
      by_cases blank : name = "" ∨ name = "."
      · rw [walkWith_blank blank] at arrives
        exact ih isDirectory arrives
      by_cases above : name = ".."
      · rw [walkWith_above blank above] at arrives
        obtain ⟨identity, found⟩ := isDirectory
        exact ih (rooted _ _ found) arrives
      by_cases long : maxNameBytes < name.utf8ByteSize
      · rw [walkWith_long blank above long] at arrives
        cases arrives
      rw [walkWith_name blank above long] at arrives
      have ends (found : Option Entry) (same : disk.entry? (here ++ [name]) = found) (slash : Bool) :
          Target.Lies disk ⟨here ++ [name], found, slash⟩ :=
        ⟨same.symm, by rwa [List.dropLast_concat]⟩
      cases found : disk.entry? (here ++ [name]) with
      | none =>
          rw [found] at arrives
          cases isLast : endsHere rest with
          | none =>
              rw [isLast] at arrives
              cases arrives
          | some slash =>
              rw [isLast] at arrives
              obtain rfl := Except.ok.inj arrives
              exact ends none found slash
      | some entry =>
          rw [found] at arrives
          cases entry with
          | directory identity => exact ih ⟨identity, found⟩ arrives
          | link text =>
              dsimp only at arrives
              split at arrives
              · cases arrives
              · split at arrives
                · exact follows _ _ _ ⟨0, rfl⟩ arrives
                · exact follows _ _ _ isDirectory arrives
          | file identity content =>
              cases isLast : endsHere rest with
              | none =>
                  rw [isLast] at arrives
                  cases arrives
              | some slash =>
                  rw [isLast] at arrives
                  obtain rfl := Except.ok.inj arrives
                  exact ends _ found slash

/-- From a directory a path leads to a place in a directory. -/
theorem walk_lies (links : Nat) {here : Place}
    (isDirectory : ∃ identity, disk.entry? here = some (.directory identity))
    {path : List String} {target : Target} (arrives : walk disk links here path = .ok target) :
    target.Lies disk := by
  induction links generalizing here path target with
  | zero => exact walkWith_lies rooted (fun _ _ _ _ goesOn => by cases goesOn) isDirectory arrives
  | succ links ih =>
      exact walkWith_lies rooted (fun _ _ _ inside goesOn => ih inside goesOn) isDirectory arrives

theorem locate_lies {path : Path} {target : Target} (located : disk.locate path = .ok target) :
    target.Lies disk := by
  unfold locate at located
  cases isPath : checkPath path with
  | error errno =>
      rw [isPath] at located
      cases located
  | ok =>
      rw [isPath] at located
      exact walk_lies rooted maxLinks ⟨0, rfl⟩ located

end

/-- A path whose last component is not followed leads to the top, or to a name in a directory. -/
theorem locateEntry_eq_ok_iff {disk : Disk} {path : Path} {target : Target} :
    disk.locateEntry path = .ok target
      ↔ checkPath path = .ok () ∧ ((path.trimmed = [] ∧ target = ⟨[], some (.directory 0), true⟩)
        ∨ ∃ front name directory identity, path.trimmed = front ++ [name]
          ∧ walk disk maxLinks [] front = .ok ⟨directory, some (.directory identity), false⟩
          ∧ ¬ maxNameBytes < name.utf8ByteSize
          ∧ target = ⟨directory ++ [name], disk.entry? (directory ++ [name]),
              path.getLast? == some ""⟩) := by
  unfold locateEntry
  cases isPath : checkPath path with
  | error errno => exact iff_of_false (fun located => by cases located) fun both => by cases both.1
  | ok =>
      simp only [true_and, bind, Except.bind]
      rcases List.eq_nil_or_concat' path.trimmed with none | ⟨front, name, isConcat⟩
      · rw [none]
        refine ⟨fun located => .inl ⟨rfl, (Except.ok.inj located).symm⟩, ?_⟩
        rintro (⟨_, rfl⟩ | ⟨front, name, _, _, same, _⟩)
        · rfl
        · simp at same
      simp only [isConcat, List.getLast?_concat, List.dropLast_concat]
      constructor
      · intro located
        cases walked : walk disk maxLinks [] front with
        | error errno =>
            rw [walked] at located
            cases located
        | ok directory =>
            rw [walked] at located
            obtain ⟨place, entry, slash⟩ := directory
            rcases entry with _ | ⟨_, _⟩ | identity | _
            · cases located
            · cases located
            · obtain rfl : slash = false := slash_walk maxLinks walked rfl
              dsimp only at located
              split at located
              · cases located
              next short =>
                exact .inr ⟨front, name, place, identity, rfl, walked, short,
                  (Except.ok.inj located).symm⟩
            · cases located
      · rintro (⟨none, _⟩ | ⟨front', name', directory, identity, same, walked, short, rfl⟩)
        · simp at none
        · obtain ⟨rfl, isName⟩ := List.append_inj' same rfl
          obtain rfl := List.cons.inj isName |>.1
          simp only [walked, if_neg short]

theorem locateEntry_lies {disk : Disk} {path : Path} {target : Target}
    (located : disk.locateEntry path = .ok target) : target.Lies disk := by
  rcases (locateEntry_eq_ok_iff.mp located).2 with
    ⟨_, rfl⟩ | ⟨front, name, directory, identity, _, walked, _, rfl⟩
  · exact ⟨rfl, 0, rfl⟩
  · exact ⟨rfl, identity, by rw [List.dropLast_concat, entry?_of_walk walked]⟩

theorem Target.Lies.ne_nil {disk : Disk} {target : Target} (lies : target.Lies disk)
    (free : target.entry = none) : target.place ≠ [] := by
  intro isTop
  have found := lies.entry
  rw [free, isTop] at found
  cases found

/-! ## Changes -/

/-- What lies in a place that is below another one is below it. -/
theorem below_of_dropLast {above place : Place} (inside : below above place.dropLast = true) :
    below above place = true := by
  obtain ⟨rest, same⟩ := below_iff.mp inside
  rcases List.eq_nil_or_concat' place with rfl | ⟨front, last, rfl⟩
  · exact inside
  · exact below_iff.mpr ⟨rest ++ [last], by rw [← List.append_assoc, ← same, List.dropLast_concat]⟩

/-- Where something lies below a place, the place is the one of a directory. -/
theorem Rooted.directory_above {disk : Disk} (rooted : Rooted disk) {place : Place} {name : String}
    {rest : List String} {entry : Entry}
    (found : disk.entry? (place ++ name :: rest) = some entry) :
    ∃ identity, disk.entry? place = some (.directory identity) := by
  induction rest using List.reverseRecOn generalizing entry with
  | nil => simpa using rooted _ _ found
  | append_singleton rest last ih =>
      obtain ⟨identity, isDirectory⟩ := rooted _ _ found
      rw [← List.cons_append, ← List.append_assoc, List.dropLast_concat] at isDirectory
      exact ih isDirectory

namespace InOrder

variable {disk : Disk} (inOrder : InOrder disk) {place : Place}
include inOrder

theorem addIdentity : InOrder { disk with nextIdentity := disk.nextIdentity + 1 } :=
  ⟨sound_nextIdentity inOrder.sound, inOrder.rooted⟩

/-- An entry is put at a free place in a directory. -/
theorem put (nonempty : place ≠ []) (free : disk.entry? place = none)
    (inside : ∃ identity, disk.entry? place.dropLast = some (.directory identity)) {entry : Entry}
    (isGiven : ∀ identity ∈ entry.identity?, identity < disk.nextIdentity) :
    InOrder (disk.put place entry) := by
  refine ⟨sound_put inOrder.sound nonempty isGiven, fun other found there => ?_⟩
  have kept {above : Place}
      (isDirectory : ∃ identity, disk.entry? above = some (.directory identity)) :
      ∃ identity, Disk.entry? (disk.put place entry) above = some (.directory identity) := by
    obtain ⟨identity, isDirectory⟩ := isDirectory
    refine ⟨identity, ?_⟩
    rw [entry?_put inOrder.sound nonempty isGiven, if_neg, isDirectory]
    rintro rfl
    rw [free] at isDirectory
    cases isDirectory
  rw [entry?_put inOrder.sound nonempty isGiven] at there
  split at there
  next same => exact kept (same ▸ inside)
  next => exact kept (inOrder.rooted _ _ there)

theorem addFile (nonempty : place ≠ []) (free : disk.entry? place = none)
    (inside : ∃ identity, disk.entry? place.dropLast = some (.directory identity)) :
    InOrder (disk.addFile place) :=
  inOrder.addIdentity.put nonempty free inside (by simp [Entry.identity?])

theorem addDirectory (nonempty : place ≠ []) (free : disk.entry? place = none)
    (inside : ∃ identity, disk.entry? place.dropLast = some (.directory identity)) :
    InOrder (disk.addDirectory place) :=
  inOrder.addIdentity.put nonempty free inside (by simp [Entry.identity?])

theorem setContent (identity : Nat) (content : String) :
    InOrder (disk.setContent identity content) := by
  refine ⟨sound_setContent inOrder.sound _ _, fun other entry found => ?_⟩
  rw [entry?_setContent] at found
  obtain ⟨old, there, _⟩ := Option.map_eq_some_iff.mp found
  obtain ⟨identity', isDirectory⟩ := inOrder.rooted _ _ there
  refine ⟨identity', ?_⟩
  rw [entry?_setContent, isDirectory]
  rfl

theorem without (place : Place) : InOrder (disk.without place) := by
  refine ⟨sound_without inOrder.sound _, fun other entry found => ?_⟩
  by_cases isTop : place = []
  · have nothing : (disk.without place).entries = [] := by simp [Disk.without, isTop, below]
    cases other with
    | nil => exact ⟨0, rfl⟩
    | cons name rest =>
        rw [entry?_eq_lookup _ (by simp), nothing] at found
        cases found
  have nonempty : place ≠ [] := isTop
  rw [entry?_without inOrder.sound nonempty] at found
  split at found
  · cases found
  next outside =>
    obtain ⟨identity, isDirectory⟩ := inOrder.rooted _ _ found
    refine ⟨identity, ?_⟩
    rw [entry?_without inOrder.sound nonempty, if_neg (mt below_of_dropLast outside), isDirectory]

/-- Entries are moved to a place in a directory that lies apart from them. -/
theorem relocate {source target : Place} (apart : below source target = false)
    (apart' : below target source = false)
    (inside : ∃ identity, disk.entry? target.dropLast = some (.directory identity)) :
    InOrder (disk.relocate source target) := by
  have fromBelow : source ≠ [] := by
    rintro rfl
    cases apart
  have toBelow : target ≠ [] := by
    rintro rfl
    cases apart'
  have found? := entry?_relocate inOrder.sound fromBelow toBelow apart apart'
  obtain ⟨above, name, rfl⟩ := (List.eq_nil_or_concat' target).resolve_left toBelow
  -- What lies outside of both places and is a directory stays one.
  have kept {other : Place} (outTarget : below (above ++ [name]) other = false)
      (outSource : below source other = false)
      (isDirectory : ∃ identity, disk.entry? other = some (.directory identity)) :
      ∃ identity, Disk.entry? (disk.relocate source (above ++ [name])) other
        = some (.directory identity) := by
    rwa [found?, outTarget, outSource]
  refine ⟨sound_relocate inOrder.sound toBelow, fun other entry there => ?_⟩
  rw [found?] at there
  split at there
  next inTarget =>
    obtain ⟨rest, rfl⟩ := below_iff.mp inTarget
    rw [List.drop_left] at there
    rcases List.eq_nil_or_concat' rest with rfl | ⟨rest, last, rfl⟩
    · rw [List.append_nil, List.dropLast_concat]
      rw [List.dropLast_concat] at inside
      refine kept ?_ ?_ inside
      · by_contra isBelow
        obtain ⟨rest, same⟩ := below_iff.mp (Bool.not_eq_false _ |>.mp isBelow)
        have sizes := congrArg List.length same
        simp at sizes
      · by_contra isBelow
        obtain ⟨rest, rfl⟩ := below_iff.mp (Bool.not_eq_false _ |>.mp isBelow)
        rw [List.append_assoc, below_append] at apart
        cases apart
    · rw [← List.append_assoc] at there ⊢
      rw [List.dropLast_concat, found?, if_pos (below_append _ _), List.drop_left]
      have isDirectory := inOrder.rooted _ _ there
      rwa [List.dropLast_concat] at isDirectory
  next outTarget =>
    split at there
    · cases there
    next outSource =>
      exact kept (Bool.eq_false_iff.mpr (mt below_of_dropLast outTarget))
        (Bool.eq_false_iff.mpr (mt below_of_dropLast outSource)) (inOrder.rooted _ _ there)

/-! ## Calls -/

theorem makeDirectory {path : Path} {disk' : Disk} (makes : disk.makeDirectory path = .ok disk') :
    InOrder disk' := by
  unfold Disk.makeDirectory at makes
  cases located : disk.locateEntry path with
  | error errno =>
      rw [located] at makes
      cases makes
  | ok target =>
      rw [located] at makes
      cases free : target.entry with
      | some entry =>
          simp only [bind, Except.bind, free] at makes
          cases makes
      | none =>
          simp only [bind, Except.bind, free] at makes
          obtain rfl := Except.ok.inj makes
          have lies := locateEntry_lies located
          exact inOrder.addDirectory (lies.ne_nil free) (lies.entry.symm.trans free) lies.inside

theorem ensureDirectory (path : Path) (pending : Bool) :
    InOrder (disk.ensureDirectory path pending).2 := by
  unfold Disk.ensureDirectory
  split
  next makes => exact inOrder.makeDirectory makes
  next => exact inOrder

theorem ensureAll (pending : Bool) (names : List String) :
    InOrder (disk.ensureAll pending names).2 := by
  induction names generalizing pending with
  | nil => exact inOrder
  | cons name above ih =>
      unfold Disk.ensureAll
      dsimp only
      split
      · split
        next made =>
          have inOrder' := ih true
          rw [made] at inOrder'
          exact inOrder'.ensureDirectory _ _
        next => exact ih true
      · exact inOrder.ensureDirectory _ _

theorem makeDirectories (path : Path) : InOrder (disk.makeDirectories path).2 := by
  unfold Disk.makeDirectories
  split
  · exact inOrder.ensureAll false _
  · exact inOrder

theorem openNew {path : Path} {handle : Nat} {disk' : Disk}
    (opens : disk.openNew path = .ok (handle, disk')) : InOrder disk' := by
  unfold Disk.openNew at opens
  cases located : disk.locateEntry path with
  | error errno =>
      rw [located] at opens
      cases opens
  | ok target =>
      rw [located] at opens
      dsimp only [bind, Except.bind] at opens
      split at opens
      · cases opens
      · cases free : target.entry with
        | some entry =>
            rw [free] at opens
            cases opens
        | none =>
            rw [free] at opens
            cases opens
            have lies := locateEntry_lies located
            exact inOrder.addFile (lies.ne_nil free) (lies.entry.symm.trans free) lies.inside

theorem openEmpty {path : Path} {handle : Nat} {disk' : Disk}
    (opens : disk.openEmpty path = .ok (handle, disk')) : InOrder disk' := by
  unfold Disk.openEmpty at opens
  cases located : disk.locate path with
  | error errno =>
      rw [located] at opens
      cases opens
  | ok target =>
      rw [located] at opens
      dsimp only [bind, Except.bind] at opens
      split at opens
      · cases opens
      · have lies := locate_lies inOrder.rooted located
        rcases free : target.entry with _ | ⟨_, _⟩ | _ | _
        · rw [free] at opens
          cases opens
          exact inOrder.addFile (lies.ne_nil free) (lies.entry.symm.trans free) lies.inside
        · rw [free] at opens
          cases opens
          exact inOrder.setContent _ _
        · rw [free] at opens
          cases opens
        · rw [free] at opens
          cases opens

/-- Below what is no directory there is no room for anything. -/
theorem not_below {place other : Place}
    (noDirectory : ∀ identity, disk.entry? place ≠ some (.directory identity))
    (inside : ∃ identity, disk.entry? other.dropLast = some (.directory identity))
    (differ : place ≠ other) : below place other = false := by
  by_contra isBelow
  obtain ⟨rest, rfl⟩ := below_iff.mp (Bool.not_eq_false _ |>.mp isBelow)
  obtain ⟨identity, isDirectory⟩ := inside
  rcases List.eq_nil_or_concat' rest with rfl | ⟨rest, last, rfl⟩
  · exact differ (List.append_nil _).symm
  · rw [← List.append_assoc, List.dropLast_concat] at isDirectory
    cases rest with
    | nil => exact noDirectory identity (by rwa [List.append_nil] at isDirectory)
    | cons name rest =>
        obtain ⟨identity', isAbove⟩ := inOrder.rooted.directory_above isDirectory
        exact noDirectory identity' isAbove

theorem renameEntry {source target : Target} {entry : Entry} {disk' : Disk}
    (lies : source.Lies disk) (lies' : target.Lies disk) (found : source.entry = some entry)
    (renames : disk.renameEntry source target entry = .ok disk') : InOrder disk' := by
  have there : disk.entry? source.place = some entry := lies.entry.symm.trans found
  unfold Disk.renameEntry at renames
  split at renames
  · cases renames
    exact inOrder
  next differ =>
  split at renames
  · split at renames
    · cases renames
    next apart =>
    split at renames
    · cases renames
    next apart' =>
    have moves : InOrder (disk.relocate source.place target.place) :=
      inOrder.relocate (Bool.eq_false_iff.mpr apart) (Bool.eq_false_iff.mpr apart') lies'.inside
    split at renames
    · cases renames
      exact moves
    · split at renames
      · cases renames
        exact moves
      · cases renames
    · cases renames
  next noDirectory =>
  split at renames
  · cases renames
  have moves (other : ∀ identity, target.entry ≠ some (.directory identity)) :
      InOrder (disk.relocate source.place target.place) := by
    refine inOrder.relocate (inOrder.not_below ?_ lies'.inside differ)
      (inOrder.not_below ?_ lies.inside (Ne.symm differ)) lies'.inside
    · rintro identity isDirectory
      rw [there] at isDirectory
      cases isDirectory
      exact noDirectory rfl
    · intro identity
      rw [← lies'.entry]
      exact other identity
  split at renames
  · cases renames
  next isOther =>
    have moves := moves fun identity isDirectory => by
      rw [isDirectory] at isOther
      cases isOther
      next notDirectory => exact notDirectory _ rfl
    split at renames
    · cases renames
      exact inOrder
    · cases renames
      exact moves
  next free =>
    cases renames
    exact moves fun identity isDirectory => by
      rw [free] at isDirectory
      cases isDirectory

theorem rename {source target : Path} {disk' : Disk}
    (renames : disk.rename source target = .ok disk') : InOrder disk' := by
  unfold Disk.rename at renames
  cases located : disk.locateEntry source with
  | error errno =>
      rw [located] at renames
      cases renames
  | ok found =>
      cases located' : disk.locateEntry target with
      | error errno =>
          rw [located, located'] at renames
          cases renames
      | ok found' =>
          rw [located, located'] at renames
          dsimp only [bind, Except.bind] at renames
          split at renames
          · cases renames
          next there =>
            exact inOrder.renameEntry (locateEntry_lies located) (locateEntry_lies located') there
              renames

theorem addLink {source target : Path} {disk' : Disk}
    (links : disk.addLink source target = .ok disk') : InOrder disk' := by
  unfold Disk.addLink at links
  cases located : disk.locateEntry source with
  | error errno =>
      rw [located] at links
      cases links
  | ok found =>
      rw [located] at links
      dsimp only [bind, Except.bind] at links
      split at links
      · cases links
      next entry there =>
      cases located' : disk.locateEntry target with
      | error errno =>
          rw [located'] at links
          cases links
      | ok found' =>
          rw [located'] at links
          dsimp only at links
          split at links
          · cases links
          next isFree =>
          split at links
          · cases links
          split at links
          · cases links
          next noDirectory =>
          cases links
          have free : found'.entry = none := by simpa using isFree
          have lies := locateEntry_lies located
          have lies' := locateEntry_lies located'
          have isEntry : disk.entry? found.place = some entry := lies.entry.symm.trans there
          refine inOrder.put (lies'.ne_nil free) (lies'.entry.symm.trans free) lies'.inside
            fun identity isIdentity =>
              inOrder.sound.lt_nextIdentity (fun isTop => ?_) isEntry isIdentity
          rw [isTop] at isEntry
          cases isEntry
          exact noDirectory rfl

theorem unlink {path : Path} {disk' : Disk} (unlinks : disk.unlink path = .ok disk') :
    InOrder disk' := by
  unfold Disk.unlink at unlinks
  cases located : disk.locateEntry path with
  | error errno =>
      rw [located] at unlinks
      cases unlinks
  | ok found =>
      rw [located] at unlinks
      dsimp only [bind, Except.bind] at unlinks
      split at unlinks
      · cases unlinks
      · cases unlinks
      split at unlinks
      · cases unlinks
      · cases unlinks
        exact inOrder.without _

theorem removeTree {path : Path} {disk' : Disk} (removes : disk.removeTree path = .ok disk') :
    InOrder disk' := by
  unfold Disk.removeTree at removes
  repeat' split at removes
  all_goals cases removes
  all_goals first | exact inOrder | exact inOrder.without _

theorem changing {result : Except Errno Disk}
    (keeps : ∀ disk', result = .ok disk' → InOrder disk') :
    InOrder (disk.changing result).2 := by
  cases result with
  | error errno => exact inOrder
  | ok disk' => exact keeps disk' rfl

theorem opening {result : Except Errno (Nat × Disk)}
    (keeps : ∀ handle disk', result = .ok (handle, disk') → InOrder disk') :
    InOrder (disk.opening result).2 := by
  cases result with
  | error errno => exact inOrder
  | ok opened => exact keeps opened.1 opened.2 rfl

/-- **Every call keeps a disk in order.** -/
theorem answer (call : Call) : InOrder (disk.answer call).2 := by
  cases call with
  | makeDirectories path => exact inOrder.makeDirectories path
  | openNew path => exact inOrder.opening fun _ _ opens => inOrder.openNew opens
  | openEmpty path => exact inOrder.opening fun _ _ opens => inOrder.openEmpty opens
  | write handle content => exact inOrder.setContent handle content
  | rename source target => exact inOrder.changing fun _ renames => inOrder.rename renames
  | link source target => exact inOrder.changing fun _ links => inOrder.addLink links
  | unlink path => exact inOrder.changing fun _ unlinks => inOrder.unlink unlinks
  | removeTree path => exact inOrder.changing fun _ removes => inOrder.removeTree removes
  | status | read | list | syncContent | syncFile | close | syncDirectory => exact inOrder

end InOrder

end DocStore.Disk
