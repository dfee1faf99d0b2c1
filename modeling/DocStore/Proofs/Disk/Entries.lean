import DocStore.Disk.Call
import DocStore.Proofs.Lookup
import Mathlib.Data.List.Basic
import Mathlib.Data.List.Nodup
import Mathlib.Tactic.ByContra
/-!
# What changes leave on a disk

A disk is in order when no place has two entries and every identity has been given (`Sound`); all
changes keep it in order.  For each change there is one rule that says what is at every place
afterwards: `entry?_put`, `entry?_without`, `entry?_setContent` and `entry?_relocate`.

A disk gives identities in rising order and takes none back (`nextIdentity_le_answer`).  So what is
created is never taken for something that has been there before.
-/

set_option autoImplicit false

namespace DocStore.Disk

/-- The identity of a directory or a file. -/
def Entry.identity? : Entry → Option Nat
  | file identity _ | directory identity => some identity
  | link _ => none

/-- A disk in order: no place has two entries, none is the top, and all identities have been given.
-/
structure Sound (disk : Disk) : Prop where
  distinct : (disk.entries.map Prod.fst).Nodup
  named : ∀ found ∈ disk.entries, found.1 ≠ []
  given : ∀ found ∈ disk.entries, ∀ identity ∈ found.2.identity?, identity < disk.nextIdentity

theorem sound_empty : Sound empty :=
  ⟨List.nodup_nil, by simp [empty], by simp [empty]⟩

section

variable {disk : Disk} {place other : Place} {entry : Entry}

theorem entry?_eq_lookup (disk : Disk) (below : place ≠ []) :
    disk.entry? place = disk.entries.lookup place := by
  cases place with
  | nil => exact absurd rfl below
  | cons => rfl

theorem entry?_eq_some_iff (sound : Sound disk) (below : place ≠ []) :
    disk.entry? place = some entry ↔ (place, entry) ∈ disk.entries := by
  rw [entry?_eq_lookup disk below, Lookup.lookup_eq_some_iff sound.distinct]

/-- An identity that is found on a disk has been given. -/
theorem Sound.lt_nextIdentity (sound : Sound disk) (below : place ≠ [])
    (found : disk.entry? place = some entry) {identity : Nat}
    (isIdentity : entry.identity? = some identity) : identity < disk.nextIdentity :=
  sound.given _ ((entry?_eq_some_iff sound below).mp found) identity isIdentity

/-! ## Putting an entry -/

theorem mem_put {found : Place × Entry} :
    found ∈ (disk.put place entry).entries
      ↔ found ∈ disk.entries ∧ found.1 ≠ place ∨ found = (place, entry) := by
  simp [put]

theorem sound_put (sound : Sound disk) (below : place ≠ [])
    (isGiven : ∀ identity ∈ entry.identity?, identity < disk.nextIdentity) :
    Sound (disk.put place entry) where
  distinct := by
    simp only [put, List.map_append, List.map_cons, List.map_nil]
    refine List.nodup_append.mpr ⟨sound.distinct.sublist (List.filter_sublist.map _), by simp, ?_⟩
    intro first inFirst second inSecond
    obtain ⟨found, inFilter, rfl⟩ := List.mem_map.mp inFirst
    obtain rfl : second = place := by simpa using inSecond
    simpa using (List.mem_filter.mp inFilter).2
  named found member := by
    rcases mem_put.mp member with ⟨inDisk, _⟩ | rfl
    · exact sound.named found inDisk
    · exact below
  given found member identity isIdentity := by
    rcases mem_put.mp member with ⟨inDisk, _⟩ | rfl
    · exact sound.given found inDisk identity isIdentity
    · exact isGiven identity isIdentity

/-- Nothing changes but the place at which an entry is put. -/
theorem entry?_put (sound : Sound disk) (below : place ≠ [])
    (isGiven : ∀ identity ∈ entry.identity?, identity < disk.nextIdentity) (other : Place) :
    Disk.entry? (disk.put place entry) other
      = if other = place then some entry else disk.entry? other := by
  by_cases isTop : other = []
  · subst isTop
    rw [if_neg (Ne.symm below)]
    rfl
  have soundAfter := sound_put sound below isGiven
  split
  next same =>
    subst same
    exact (entry?_eq_some_iff soundAfter isTop).mpr (mem_put.mpr (.inr rfl))
  next differ =>
    refine Option.ext fun found => ?_
    rw [entry?_eq_some_iff soundAfter isTop, entry?_eq_some_iff sound isTop, mem_put]
    simp [differ]

theorem sound_nextIdentity (sound : Sound disk) :
    Sound { disk with nextIdentity := disk.nextIdentity + 1 } where
  distinct := sound.distinct
  named := sound.named
  given found member identity isIdentity :=
    Nat.lt_succ_of_lt (sound.given found member identity isIdentity)

theorem sound_addDirectory (sound : Sound disk) (below : place ≠ []) :
    Sound (disk.addDirectory place) :=
  sound_put (sound_nextIdentity sound) below (by simp [Entry.identity?])

theorem entry?_addDirectory (sound : Sound disk) (below : place ≠ []) (other : Place) :
    Disk.entry? (disk.addDirectory place) other
      = if other = place then some (.directory disk.nextIdentity) else disk.entry? other :=
  entry?_put (sound_nextIdentity sound) below (by simp [Entry.identity?]) other

/-! ## Removing entries -/

theorem sound_without (sound : Sound disk) (place : Place) : Sound (disk.without place) where
  distinct := sound.distinct.sublist (List.filter_sublist.map _)
  named found member := sound.named found (List.mem_filter.mp member).1
  given found member := sound.given found (List.mem_filter.mp member).1

/-- Nothing is left at or below a place that is removed, and all else stays. -/
theorem entry?_without (sound : Sound disk) (nonempty : place ≠ []) (other : Place) :
    Disk.entry? (disk.without place) other
      = if below place other then none else disk.entry? other := by
  by_cases isTop : other = []
  · subst isTop
    have outside : ¬ below place [] = true := by
      simp [below, nonempty]
    rw [if_neg outside]
    rfl
  have soundAfter := sound_without sound place
  refine Option.ext fun found => ?_
  rw [entry?_eq_some_iff soundAfter isTop, without, List.mem_filter]
  split
  next inside => simp [inside]
  next outside => simp [outside, entry?_eq_some_iff sound isTop]

/-! ## Writing a file -/

/-- An entry after a file of an identity has got a content. -/
def Entry.written (identity : Nat) (content : String) : Entry → Entry
  | file other old => file other (if other = identity then content else old)
  | entry => entry

theorem entries_setContent (disk : Disk) (identity : Nat) (content : String) :
    (disk.setContent identity content).entries
      = disk.entries.map fun found => (found.1, found.2.written identity content) := by
  simp only [setContent]
  refine List.map_congr_left fun found _ => ?_
  obtain ⟨place, entry⟩ := found
  cases entry <;> rfl

theorem Entry.identity?_written (identity : Nat) (content : String) (entry : Entry) :
    (entry.written identity content).identity? = entry.identity? := by
  cases entry <;> rfl

theorem sound_setContent (sound : Sound disk) (identity : Nat) (content : String) :
    Sound (disk.setContent identity content) where
  distinct := by
    rw [entries_setContent, Lookup.map_fst_map]
    exact sound.distinct
  named found member := by
    rw [entries_setContent] at member
    obtain ⟨old, inDisk, rfl⟩ := List.mem_map.mp member
    exact sound.named old inDisk
  given found member := by
    rw [entries_setContent] at member
    obtain ⟨old, inDisk, rfl⟩ := List.mem_map.mp member
    rw [Entry.identity?_written]
    exact sound.given old inDisk

/-- Writing a file changes the content of its entries and nothing else. -/
theorem entry?_setContent (disk : Disk) (identity : Nat) (content : String) (other : Place) :
    Disk.entry? (disk.setContent identity content) other
      = (disk.entry? other).map (Entry.written identity content) := by
  by_cases isTop : other = []
  · subst isTop
    rfl
  · rw [entry?_eq_lookup _ isTop, entry?_eq_lookup _ isTop, entries_setContent, Lookup.lookup_map]

theorem Entry.written_of_ne {identity : Nat} (differ : entry.identity? ≠ some identity)
    (content : String) : entry.written identity content = entry := by
  cases entry with
  | file other old =>
      have differ : other ≠ identity := fun same => differ (by rw [same]; rfl)
      simp [written, differ]
  | directory _ => rfl
  | link _ => rfl

/-! ## Moving entries -/

theorem moved_of_below {source target : Place} (inside : below source place = true) :
    moved source target place = target ++ place.drop source.length := by
  simp [moved, inside]

theorem moved_of_not_below {source target : Place} (outside : below source place = false) :
    moved source target place = place := by
  simp [moved, outside]

theorem below_iff {above : Place} : below above place = true ↔ ∃ rest, place = above ++ rest := by
  rw [below, List.isPrefixOf_iff_prefix]
  exact ⟨fun ⟨rest, same⟩ => ⟨rest, same.symm⟩, fun ⟨rest, same⟩ => ⟨rest, same.symm⟩⟩

theorem below_append (above rest : Place) : below above (above ++ rest) = true :=
  below_iff.mpr ⟨rest, rfl⟩

section

variable {source target : Place}

/-- Places that lie apart have nothing below both. -/
theorem not_below_of_below (apart : below source target = false)
    (apart' : below target source = false) (inside : below source place = true) :
    below target place = false := by
  by_contra both
  obtain ⟨rest, rfl⟩ := below_iff.mp inside
  obtain ⟨rest', same⟩ := below_iff.mp (Bool.not_eq_false _ |>.mp both)
  rcases List.append_eq_append_iff.mp same with ⟨between, rfl, _⟩ | ⟨between, rfl, _⟩
  · rw [below_append] at apart
    exact absurd apart (by decide)
  · rw [below_append] at apart'
    exact absurd apart' (by decide)

/-- Moving does not bring two places together, where the target is free. -/
theorem moved_injective {first second : Place} (free : below target first = false)
    (free' : below target second = false)
    (same : moved source target first = moved source target second) : first = second := by
  cases inside : below source first <;> cases inside' : below source second
  · rwa [moved_of_not_below inside, moved_of_not_below inside'] at same
  · rw [moved_of_not_below inside, moved_of_below inside'] at same
    rw [same, below_append] at free
    exact absurd free (by decide)
  · rw [moved_of_below inside, moved_of_not_below inside'] at same
    rw [← same, below_append] at free'
    exact absurd free' (by decide)
  · rw [moved_of_below inside, moved_of_below inside'] at same
    obtain ⟨rest, rfl⟩ := below_iff.mp inside
    obtain ⟨rest', rfl⟩ := below_iff.mp inside'
    simpa using same

theorem entries_relocate (disk : Disk) (source target : Place) :
    (disk.relocate source target).entries
      = (disk.without target).entries.map fun found => (moved source target found.1, found.2) := rfl

theorem mem_relocate {found : Place × Entry} :
    found ∈ (disk.relocate source target).entries
      ↔ ∃ old ∈ disk.entries, below target old.1 = false
          ∧ (moved source target old.1, old.2) = found := by
  rw [entries_relocate, List.mem_map]
  simp only [without, List.mem_filter, Bool.not_eq_true', and_assoc]

theorem sound_relocate (sound : Sound disk) (nonempty : target ≠ []) :
    Sound (disk.relocate source target) where
  distinct := by
    have firsts : (disk.relocate source target).entries.map Prod.fst
        = ((disk.without target).entries.map Prod.fst).map (moved source target) := by
      rw [entries_relocate, List.map_map, List.map_map]
      rfl
    rw [firsts]
    refine (sound_without sound target).distinct.map_on fun first inFirst second inSecond same => ?_
    obtain ⟨found, member, rfl⟩ := List.mem_map.mp inFirst
    obtain ⟨found', member', rfl⟩ := List.mem_map.mp inSecond
    exact moved_injective (by simpa using (List.mem_filter.mp member).2)
      (by simpa using (List.mem_filter.mp member').2) same
  named found member := by
    obtain ⟨old, inDisk, _, rfl⟩ := mem_relocate.mp member
    cases inside : below source old.1
    · rw [moved_of_not_below inside]
      exact sound.named old inDisk
    · rw [moved_of_below inside]
      simp [nonempty]
  given found member := by
    obtain ⟨old, inDisk, _, rfl⟩ := mem_relocate.mp member
    exact sound.given old inDisk

/-- What lay at or below the source lies at or below the target, in place of what was there. -/
theorem entry?_relocate (sound : Sound disk) (fromBelow : source ≠ []) (toBelow : target ≠ [])
    (apart : below source target = false) (apart' : below target source = false) (other : Place) :
    Disk.entry? (disk.relocate source target) other
      = if below target other then disk.entry? (source ++ other.drop target.length)
        else if below source other then none else disk.entry? other := by
  by_cases isTop : other = []
  · subst isTop
    have outside : ¬ below target [] = true := by simp [below, toBelow]
    have outside' : ¬ below source [] = true := by simp [below, fromBelow]
    rw [if_neg outside, if_neg outside']
    rfl
  refine Option.ext fun found => ?_
  rw [entry?_eq_some_iff (sound_relocate sound toBelow) isTop, mem_relocate]
  split
  next inTarget =>
    obtain ⟨rest, rfl⟩ := below_iff.mp inTarget
    rw [List.drop_left, entry?_eq_some_iff sound (by simp [fromBelow])]
    constructor
    · rintro ⟨⟨place, entry⟩, inDisk, free, same⟩
      obtain ⟨samePlace, rfl⟩ := Prod.mk.inj same
      cases inside : below source place
      · rw [moved_of_not_below inside] at samePlace
        rw [samePlace, below_append] at free
        exact absurd free (by decide)
      · obtain ⟨rest', rfl⟩ := below_iff.mp inside
        rw [moved_of_below inside, List.drop_left] at samePlace
        rwa [← List.append_cancel_left samePlace]
    · intro inDisk
      have inside := below_append source rest
      exact ⟨_, inDisk, not_below_of_below apart apart' inside, by
        rw [moved_of_below inside, List.drop_left]⟩
  next outTarget =>
    split
    next inSource =>
      refine ⟨?_, fun none => absurd none (by simp)⟩
      rintro ⟨⟨place, entry⟩, _, _, same⟩
      obtain ⟨rfl, rfl⟩ := Prod.mk.inj same
      cases inside : below source place
      · rw [moved_of_not_below inside] at inSource
        exact absurd (inside.symm.trans inSource) (by decide)
      · rw [moved_of_below inside, below_append] at outTarget
        exact absurd rfl outTarget
    next outSource =>
      rw [entry?_eq_some_iff sound isTop]
      constructor
      · rintro ⟨⟨place, entry⟩, inDisk, _, same⟩
        obtain ⟨samePlace, rfl⟩ := Prod.mk.inj same
        cases inside : below source place
        · rw [moved_of_not_below inside] at samePlace
          rwa [← samePlace]
        · rw [moved_of_below inside] at samePlace
          rw [← samePlace, below_append] at outTarget
          exact absurd rfl outTarget
      · intro inDisk
        exact ⟨_, inDisk, by simpa using outTarget, by
          rw [moved_of_not_below (by simpa using outSource)]⟩

end

/-! ## Listing a directory -/

/-- A directory lists the names under which entries lie right below it. -/
theorem mem_listing (sound : Sound disk) {directory : Place} {name : String} {entry : Entry} :
    (name, entry) ∈ disk.listing directory ↔ disk.entry? (directory ++ [name]) = some entry := by
  rw [entry?_eq_some_iff sound (by simp)]
  simp only [listing, List.mem_filterMap]
  constructor
  · rintro ⟨⟨place, found⟩, inDisk, listed⟩
    cases last : place.getLast? with
    | none => simp [last] at listed
    | some final =>
        simp only [last] at listed
        split at listed
        next above =>
          obtain ⟨rfl, rfl⟩ := Prod.mk.inj (Option.some.inj listed)
          rw [← above, List.dropLast_append_getLast? _ last]
          exact inDisk
        next => simp at listed
  · intro inDisk
    exact ⟨_, inDisk, by simp⟩

/-- The name of a place right below a directory. -/
def nameIn? (directory place : Place) : Option String :=
  if place.dropLast = directory then place.getLast? else none

theorem map_fst_listing (disk : Disk) (directory : Place) :
    (disk.listing directory).map Prod.fst
      = (disk.entries.map Prod.fst).filterMap (nameIn? directory) := by
  rw [listing, List.map_filterMap, List.filterMap_map]
  refine List.filterMap_congr fun found _ => ?_
  obtain ⟨place, entry⟩ := found
  simp only [Function.comp_apply, nameIn?]
  by_cases above : place.dropLast = directory <;> cases place.getLast? <;> simp [above]

/-- The names in a directory are distinct. -/
theorem nodup_listing (sound : Sound disk) (directory : Place) :
    ((disk.listing directory).map Prod.fst).Nodup := by
  rw [map_fst_listing]
  refine sound.distinct.filterMap fun first second name isFirst isSecond => ?_
  simp only [nameIn?, Option.mem_def, Option.ite_none_right_eq_some] at isFirst isSecond
  rw [← List.dropLast_append_getLast? name isFirst.2, ← List.dropLast_append_getLast? name isSecond.2,
    isFirst.1, isSecond.1]

end

end DocStore.Disk

namespace DocStore.Disk

variable {disk disk' : Disk}

/-! ## Identities of what is created -/

theorem nextIdentity_le_ensureDirectory (disk : Disk) (path : Path) (pending : Bool) :
    disk.nextIdentity ≤ (disk.ensureDirectory path pending).2.nextIdentity := by
  unfold ensureDirectory makeDirectory
  cases disk.locateEntry path with
  | error errno => exact Nat.le_refl _
  | ok target =>
      obtain ⟨place, entry, slash⟩ := target
      cases entry with
      | some entry => exact Nat.le_refl _
      | none => exact Nat.le_succ _

theorem nextIdentity_le_ensureAll (disk : Disk) (pending : Bool) (names : List String) :
    disk.nextIdentity ≤ (disk.ensureAll pending names).2.nextIdentity := by
  induction names generalizing pending with
  | nil => exact Nat.le_refl _
  | cons name above ih =>
      unfold ensureAll
      dsimp only
      split
      · split
        next middle created =>
          have grown := ih true
          rw [created] at grown
          exact Nat.le_trans grown (middle.nextIdentity_le_ensureDirectory _ _)
        next stopped _ => exact ih true
      · exact disk.nextIdentity_le_ensureDirectory _ _

theorem nextIdentity_le_makeDirectories (disk : Disk) (path : Path) :
    disk.nextIdentity ≤ (disk.makeDirectories path).2.nextIdentity := by
  unfold makeDirectories
  split
  · exact disk.nextIdentity_le_ensureAll false _
  · exact Nat.le_refl _

/-- A new file has an identity that no file has had. -/
theorem nextIdentity_openNew {path : Path} {handle : Nat}
    (opens : disk.openNew path = .ok (handle, disk')) :
    disk'.nextIdentity = disk.nextIdentity + 1 := by
  unfold openNew at opens
  dsimp only [bind, Except.bind] at opens
  repeat' split at opens
  all_goals cases opens
  rfl

theorem nextIdentity_le_openEmpty {path : Path} {handle : Nat}
    (opens : disk.openEmpty path = .ok (handle, disk')) :
    disk.nextIdentity ≤ disk'.nextIdentity := by
  unfold openEmpty at opens
  dsimp only [bind, Except.bind] at opens
  repeat' split at opens
  all_goals cases opens
  · exact Nat.le_refl _
  · exact Nat.le_succ _

/-! ## Identities after moving and removing -/

theorem nextIdentity_renameEntry {source target : Target} {entry : Entry}
    (renames : disk.renameEntry source target entry = .ok disk') :
    disk'.nextIdentity = disk.nextIdentity := by
  unfold renameEntry at renames
  repeat' split at renames
  all_goals cases renames
  all_goals rfl

theorem nextIdentity_rename {source target : Path}
    (renames : disk.rename source target = .ok disk') : disk'.nextIdentity = disk.nextIdentity := by
  unfold rename at renames
  dsimp only [bind, Except.bind] at renames
  repeat' split at renames
  all_goals first | cases renames | exact nextIdentity_renameEntry renames

theorem nextIdentity_addLink {source target : Path}
    (links : disk.addLink source target = .ok disk') : disk'.nextIdentity = disk.nextIdentity := by
  unfold addLink at links
  dsimp only [bind, Except.bind] at links
  repeat' split at links
  all_goals cases links
  rfl

theorem nextIdentity_unlink {path : Path} (unlinks : disk.unlink path = .ok disk') :
    disk'.nextIdentity = disk.nextIdentity := by
  unfold unlink at unlinks
  dsimp only [bind, Except.bind] at unlinks
  repeat' split at unlinks
  all_goals cases unlinks
  rfl

theorem nextIdentity_removeTree {path : Path} (removes : disk.removeTree path = .ok disk') :
    disk'.nextIdentity = disk.nextIdentity := by
  unfold removeTree at removes
  repeat' split at removes
  all_goals cases removes
  all_goals rfl

/-! ## Identities after calls -/

theorem nextIdentity_le_changing {result : Except Errno Disk}
    (keeps : ∀ disk', result = .ok disk' → disk'.nextIdentity = disk.nextIdentity) :
    disk.nextIdentity ≤ (disk.changing result).2.nextIdentity := by
  cases result with
  | error errno => exact Nat.le_refl _
  | ok disk' => exact Nat.le_of_eq (keeps disk' rfl).symm

theorem nextIdentity_le_opening {result : Except Errno (Nat × Disk)}
    (grows : ∀ handle disk', result = .ok (handle, disk') →
      disk.nextIdentity ≤ disk'.nextIdentity) :
    disk.nextIdentity ≤ (disk.opening result).2.nextIdentity := by
  cases result with
  | error errno => exact Nat.le_refl _
  | ok opened => exact grows opened.1 opened.2 rfl

/-- **No call takes identities back.** -/
theorem nextIdentity_le_answer (disk : Disk) (call : Call) :
    disk.nextIdentity ≤ (disk.answer call).2.nextIdentity := by
  cases call with
  | makeDirectories path => exact disk.nextIdentity_le_makeDirectories path
  | openNew path =>
      exact nextIdentity_le_opening fun _ _ opens =>
        Nat.le_of_lt (Nat.lt_of_lt_of_eq (Nat.lt_succ_self _) (nextIdentity_openNew opens).symm)
  | openEmpty path => exact nextIdentity_le_opening fun _ _ opens => nextIdentity_le_openEmpty opens
  | rename source target =>
      exact nextIdentity_le_changing fun _ renames => nextIdentity_rename renames
  | link source target => exact nextIdentity_le_changing fun _ links => nextIdentity_addLink links
  | unlink path => exact nextIdentity_le_changing fun _ unlinks => nextIdentity_unlink unlinks
  | removeTree path =>
      exact nextIdentity_le_changing fun _ removes => nextIdentity_removeTree removes
  | _ => exact Nat.le_refl _

end DocStore.Disk
