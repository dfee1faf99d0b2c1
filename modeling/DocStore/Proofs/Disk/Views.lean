import DocStore.Proofs.Disk.Calls
import Mathlib.Data.Set.Basic
/-!
# What one program sees of a branch

Several programs work below the same root.  Each owns what lies under some first names, and what
lies there is its view of the branch.  `Sees` says that a disk shows a view next to whatever lies
under other names, and that nothing under the own names is the same file as something elsewhere.

A change under the own names is a change of the view and of nothing else (`Becomes`):
`Sees.addFile`, `Sees.addLink`, `Sees.without`, `Sees.setContent` and `Sees.relocate`.  So it leaves
the views of all others as they are (`Sees.beside`).
-/

set_option autoImplicit false

namespace DocStore.Disk

/-! ## First names -/

/-- The first of some names is among those that are owned. -/
def Under (heads : Set String) : List String → Prop
  | [] => False
  | head :: _ => head ∈ heads

namespace Under

variable {heads : Set String} {names : List String}

theorem nonempty (own : Under heads names) : names ≠ [] := by
  rintro rfl
  exact own

theorem append (own : Under heads names) (rest : List String) : Under heads (names ++ rest) := by
  cases names with
  | nil => exact own.elim
  | cons head names => exact own

theorem of_prefix {front : List String} (own : Under heads names) (isPrefix : front <+: names)
    (nonempty : front ≠ []) : Under heads front := by
  obtain ⟨rest, rfl⟩ := isPrefix
  cases front with
  | nil => exact absurd rfl nonempty
  | cons head front => exact own

theorem of_below {above : List String} (own : Under heads above)
    (isBelow : below above names = true) : Under heads names := by
  obtain ⟨rest, rfl⟩ := below_iff.mp isBelow
  exact own.append rest

end Under

theorem Under.mono {heads heads' : Set String} {names : List String} (own : Under heads names)
    (more : heads ⊆ heads') : Under heads' names := by
  cases names with
  | nil => exact own.elim
  | cons head names => exact more own

theorem Under.not_under {heads others : Set String} {names : List String} (own : Under heads names)
    (apart : ∀ head ∈ heads, head ∉ others) : ¬ Under others names := by
  cases names with
  | nil => exact own.elim
  | cons head rest => exact apart head own

/-! ## Views -/

/-- Nothing of a branch lies outside some first names. -/
def Branch.Inside (branch : Branch) (heads : Set String) : Prop :=
  ∀ names, ¬ Under heads names → branch names = none

/-- A disk on which a branch lies, of which one program owns what is under some first names. -/
structure Sees (origin : Disk) (home : Place) (heads : Set String) (view branch : Branch)
    (disk : Disk) : Prop where
  shows : Shows origin home branch disk
  same : ∀ names, Under heads names → branch names = view names
  inside : view.Inside heads
  apart : ∀ own other entry entry' identity, Under heads own → ¬ Under heads other →
    branch own = some entry → branch other = some entry' → entry.identity? = some identity →
    entry'.identity? ≠ some identity

/-- A disk that shows a new view, and elsewhere what was there before. -/
def Becomes (origin : Disk) (home : Place) (heads : Set String) (branch view : Branch)
    (disk : Disk) : Prop :=
  ∃ branch', Sees origin home heads view branch' disk
    ∧ ∀ names, ¬ Under heads names → branch' names = branch names

section

variable {origin : Disk} {home : Place} {heads : Set String} {view branch : Branch} {disk : Disk}

/-- Who owns everything sees the whole branch. -/
theorem Shows.sees (shows : Shows origin home branch disk) :
    Sees origin home Set.univ branch branch disk where
  shows := shows
  same _ _ := rfl
  inside names notOwn := by
    cases names with
    | nil => exact shows.top
    | cons head rest => exact absurd (Set.mem_univ head) notOwn
  apart own other entry entry' identity _ notOwn _ found := by
    cases other with
    | nil =>
        rw [shows.top] at found
        cases found
    | cons head rest => exact absurd (Set.mem_univ head) notOwn

/-- Who owns everything has changed the whole branch. -/
theorem Becomes.shows (becomes : Becomes origin home Set.univ branch view disk) :
    Shows origin home view disk := by
  obtain ⟨branch', sees, _⟩ := becomes
  have isView : branch' = view := by
    funext names
    by_cases own : Under Set.univ names
    · exact sees.same names own
    · rw [sees.inside names own]
      cases names with
      | nil => exact sees.shows.top
      | cons head rest => exact absurd (Set.mem_univ head) own
  exact isView ▸ sees.shows

/-- One change after another. -/
theorem Becomes.next {view' view'' : Branch} {disk' disk'' : Disk}
    (becomes : Becomes origin home heads branch view' disk')
    (goesOn : ∀ branch', Sees origin home heads view' branch' disk' →
      Becomes origin home heads branch' view'' disk'') :
    Becomes origin home heads branch view'' disk'' := by
  obtain ⟨branch', sees, unmoved⟩ := becomes
  obtain ⟨branch'', sees', unmoved'⟩ := goesOn branch' sees
  exact ⟨branch'', sees', fun names notOwn => (unmoved' names notOwn).trans (unmoved names notOwn)⟩

/-- Who sees nothing under some of the own names need not own them. -/
theorem Sees.of_more {heads' : Set String} (more : heads ⊆ heads')
    (inside : view.Inside heads) (sees : Sees origin home heads' view branch disk) :
    Sees origin home heads view branch disk where
  shows := sees.shows
  same names own := sees.same names (own.mono more)
  inside := inside
  apart own other entry entry' identity isOwn notOwn found found' := by
    by_cases isOther : Under heads' other
    · rw [sees.same other isOther, inside other notOwn] at found'
      cases found'
    · exact sees.apart own other entry entry' identity (isOwn.mono more) isOther found found'

/-- What is changed under some of the own names is changed under the own names. -/
theorem Becomes.more {heads' : Set String} (more : heads ⊆ heads') {view' : Branch} {disk' : Disk}
    (sees : Sees origin home heads' view branch disk) (inside : view.Inside heads)
    (becomes : Becomes origin home heads branch view' disk') :
    Becomes origin home heads' branch view' disk' := by
  obtain ⟨branch', sees', unmoved⟩ := becomes
  have nothing {names : List String} (own : Under heads' names) (notOwn : ¬ Under heads names) :
      branch' names = none := by
    rw [unmoved names notOwn, sees.same names own, inside names notOwn]
  refine ⟨branch', ⟨sees'.shows, fun names own => ?_, fun names notOwn => ?_, ?_⟩,
    fun names notOwn => unmoved names fun own => notOwn (own.mono more)⟩
  · by_cases isOwn : Under heads names
    · exact sees'.same names isOwn
    · rw [nothing own isOwn, sees'.inside names isOwn]
  · exact sees'.inside names fun own => notOwn (own.mono more)
  · intro own other entry entry' identity isOwn notOwn found found'
    by_cases isOwn' : Under heads own
    · exact sees'.apart own other entry entry' identity isOwn' (fun isOther =>
        notOwn (isOther.mono more)) found found'
    · rw [nothing isOwn isOwn'] at found
      cases found

/-- Nothing can be seen where nothing is. -/
theorem Shows.sees_nothing (shows : Shows origin home branch disk)
    (nothing : ∀ names, Under heads names → branch names = none) :
    Sees origin home heads (fun _ => none) branch disk where
  shows := shows
  same := nothing
  inside _ _ := rfl
  apart own other entry entry' identity isOwn _ found := by
    rw [nothing own isOwn] at found
    cases found

/-- Who sees a view may claim names under which nothing is. -/
theorem Sees.claim {more : Set String} (sees : Sees origin home heads view branch disk)
    (nothing : ∀ names, Under more names → branch names = none) :
    Sees origin home (heads ∪ more) view branch disk where
  shows := sees.shows
  same names own := by
    by_cases isOwn : Under heads names
    · exact sees.same names isOwn
    · rw [sees.inside names isOwn]
      cases names with
      | nil => exact own.elim
      | cons head rest => exact nothing _ (own.resolve_left isOwn)
  inside names notOwn := sees.inside names fun own => notOwn (own.mono Set.subset_union_left)
  apart own other entry entry' identity isOwn notOwn found := by
    by_cases isOwn' : Under heads own
    · exact sees.apart own other entry entry' identity isOwn' (fun isOther =>
        notOwn (isOther.mono Set.subset_union_left)) found
    · cases own with
      | nil => exact isOwn.elim
      | cons head rest =>
          rw [nothing (head :: rest) (isOwn.resolve_left isOwn')] at found
          cases found

/-- What others change under names of their own is not seen. -/
theorem Sees.beside {others : Set String} {view' branch' : Branch} {disk' : Disk}
    (sees : Sees origin home heads view branch disk)
    (changed : Sees origin home others view' branch' disk')
    (unmoved : ∀ names, ¬ Under others names → branch' names = branch names)
    (apart : ∀ head ∈ heads, head ∉ others) : Sees origin home heads view branch' disk' where
  shows := changed.shows
  same names own := by
    rw [unmoved names (own.not_under apart), sees.same names own]
  inside := sees.inside
  apart own other entry entry' identity isOwn notOwn found found' isIdentity isIdentity' := by
    by_cases isOther : Under others other
    · exact changed.apart other own entry' entry identity isOther (isOwn.not_under apart) found'
        found isIdentity' isIdentity
    · rw [unmoved own (isOwn.not_under apart)] at found
      rw [unmoved other isOther] at found'
      exact sees.apart own other entry entry' identity isOwn notOwn found found' isIdentity
        isIdentity'

namespace Sees

variable (sees : Sees origin home heads view branch disk)
include sees

/-! ## Where paths lead -/

theorem leads {names rest : List String} (own : Under heads (names ++ rest))
    (leads : view.Leads names) : branch.Leads names := by
  intro front isFront nonempty
  rw [sees.same front (own.of_prefix (isFront.trans (List.prefix_append names rest)) nonempty)]
  exact leads front isFront nonempty

theorem absent {names : List String} (own : Under heads names) (absent : view.Absent names) :
    branch.Absent names := by
  obtain ⟨front, missing, rest, rfl, leads, isMissing⟩ := absent
  have isPrefix : front ++ [missing] <+: front ++ missing :: rest :=
    ⟨rest, by rw [List.append_assoc]; rfl⟩
  refine ⟨front, missing, rest, rfl, sees.leads own leads, ?_⟩
  rw [sees.same _ (own.of_prefix isPrefix (by simp)), isMissing]

theorem lists {names : List String} (own : Under heads names)
    {listed : List (String × EntryKind)} (lists : branch.Lists names listed) :
    view.Lists names listed := by
  refine ⟨lists.1, fun name kind => ?_⟩
  rw [lists.2, sees.same _ (own.append [name])]

/-- What is under the own names has no identity that is given later. -/
theorem lt_nextIdentity {names : List String} (own : Under heads names) {entry : Entry}
    (found : view names = some entry) {identity : Nat}
    (isIdentity : entry.identity? = some identity) : identity < disk.nextIdentity :=
  sees.shows.lt_nextIdentity ((sees.same names own).trans found) isIdentity

/-- An identity that is given later is none that can be seen. -/
theorem isNew {identity : Nat} (later : disk.nextIdentity ≤ identity) (names : List String)
    (entry : Entry) (found : view names = some entry) : entry.identity? ≠ some identity := by
  intro isIdentity
  by_cases own : Under heads names
  · exact Nat.lt_irrefl _ (Nat.lt_of_lt_of_le (sees.lt_nextIdentity own found isIdentity) later)
  · rw [sees.inside names own] at found
    cases found

/-! ## Changes -/

theorem becomes : Becomes origin home heads branch view disk := ⟨branch, sees, fun _ _ => rfl⟩

/-- A change under the own names, where every identity is new or one's own. -/
theorem becomes_of {view' branch' : Branch} {disk' : Disk} (shows : Shows origin home branch' disk')
    (same : ∀ names, Under heads names → branch' names = view' names)
    (inside : ∀ names, ¬ Under heads names → view' names = view names)
    (unmoved : ∀ names, ¬ Under heads names → branch' names = branch names)
    (given : ∀ names entry identity, Under heads names → branch' names = some entry →
      entry.identity? = some identity → disk.nextIdentity ≤ identity
        ∨ ∃ own entry', Under heads own ∧ branch own = some entry'
          ∧ entry'.identity? = some identity) :
    Becomes origin home heads branch view' disk' := by
  refine ⟨branch', ⟨shows, same, fun names notOwn =>
    (inside names notOwn).trans (sees.inside names notOwn), ?_⟩, unmoved⟩
  intro own other entry entry' identity isOwn notOwn found found' isIdentity isIdentity'
  rw [unmoved other notOwn] at found'
  rcases given own entry identity isOwn found isIdentity with isNew | ⟨own', entry'', isOwn', there, isOld⟩
  · exact absurd (sees.shows.lt_nextIdentity found' isIdentity') (Nat.not_lt.mpr isNew)
  · exact sees.apart own' other entry'' entry' identity isOwn' notOwn there found' isOld isIdentity'

/-- One entry under the own names changes. -/
theorem update {names : List String} (own : Under heads names) {found : Option Entry} {disk' : Disk}
    (shows : Shows origin home (Function.update branch names found) disk')
    (given : ∀ entry identity, found = some entry → entry.identity? = some identity →
      disk.nextIdentity ≤ identity ∨ ∃ own entry', Under heads own ∧ branch own = some entry'
        ∧ entry'.identity? = some identity) :
    Becomes origin home heads branch (Function.update view names found) disk' := by
  have elsewhere {other : List String} (notOwn : ¬ Under heads other) : other ≠ names := by
    rintro rfl
    exact notOwn own
  refine sees.becomes_of shows (fun other isOwn => ?_)
    (fun other notOwn => Function.update_of_ne (elsewhere notOwn) _ _)
    (fun other notOwn => Function.update_of_ne (elsewhere notOwn) _ _)
    fun other entry identity isOwn there isIdentity => ?_
  · rw [Function.update_apply, Function.update_apply, sees.same other isOwn]
  · rw [Function.update_apply] at there
    split at there
    · exact given entry identity there isIdentity
    · exact .inr ⟨other, entry, isOwn, there, isIdentity⟩

variable {root : Path} (vacant : Vacant origin root home) {names : List String}
  (own : Under heads names)
include vacant own

omit vacant in
theorem addDirectory :
    Becomes origin home heads branch
      (Function.update view names (some (.directory disk.nextIdentity)))
      (disk.addDirectory (home ++ names)) :=
  sees.update own (sees.shows.addDirectory own.nonempty) fun entry identity same isIdentity => by
    cases same
    cases isIdentity
    exact .inl (Nat.le_refl _)

omit vacant in
theorem addFile :
    Becomes origin home heads branch (Function.update view names (some (.file disk.nextIdentity "")))
      (disk.addFile (home ++ names)) :=
  sees.update own (sees.shows.addFile own.nonempty) fun entry identity same isIdentity => by
    cases same
    cases isIdentity
    exact .inl (Nat.le_refl _)

omit vacant in
/-- A file of one's own gets a second entry. -/
theorem addLink {source : List String} (ownSource : Under heads source) {entry : Entry}
    (found : view source = some entry) :
    Becomes origin home heads branch (Function.update view names (some entry))
      (disk.put (home ++ names) entry) := by
  have there := (sees.same source ownSource).trans found
  refine sees.update own (sees.shows.put own.nonempty fun identity isIdentity =>
    sees.shows.lt_nextIdentity there isIdentity) fun entry' identity same isIdentity => ?_
  cases same
  exact .inr ⟨source, entry, ownSource, there, isIdentity⟩

omit vacant in
theorem without :
    Becomes origin home heads branch (view.without names) (disk.without (home ++ names)) := by
  refine sees.becomes_of (sees.shows.without own.nonempty) (fun other isOwn => ?_)
    (fun other notOwn => if_neg fun isBelow => notOwn (own.of_below isBelow))
    (fun other notOwn => if_neg fun isBelow => notOwn (own.of_below isBelow))
    fun other entry identity isOwn found isIdentity => ?_
  · rw [Branch.without, Branch.without, sees.same other isOwn]
  · rw [Branch.without] at found
    split at found
    · cases found
    · exact .inr ⟨other, entry, isOwn, found, isIdentity⟩

/-- Writing into a file of one's own changes no other file. -/
theorem setContent {identity : Nat} {old : String} (isNew : origin.nextIdentity ≤ identity)
    (found : view names = some (.file identity old)) (content : String) :
    Becomes origin home heads branch (view.written identity content)
      (disk.setContent identity content) := by
  refine sees.becomes_of (sees.shows.setContent vacant content isNew) (fun other isOwn => ?_)
    (fun other notOwn => ?_) (fun other notOwn => ?_)
    fun other entry identity' isOwn there isIdentity => ?_
  · rw [Branch.written, Branch.written, sees.same other isOwn]
  · rw [Branch.written, sees.inside other notOwn, Option.map_none]
  · rw [Branch.written]
    cases there : branch other with
    | none => rfl
    | some entry =>
        rw [Option.map_some, Entry.written_of_ne]
        exact sees.apart names other (.file identity old) entry identity own notOwn
          ((sees.same names own).trans found) there rfl
  · obtain ⟨entry', there', rfl⟩ := Option.map_eq_some_iff.mp there
    rw [Entry.identity?_written] at isIdentity
    exact .inr ⟨other, entry', isOwn, there', isIdentity⟩

omit vacant in
theorem relocate {target : List String} (ownTarget : Under heads target)
    (apart : below names target = false) (apart' : below target names = false) :
    Becomes origin home heads branch (view.relocated names target)
      (disk.relocate (home ++ names) (home ++ target)) := by
  have unmoved (branch : Branch) {other : List String} (notOwn : ¬ Under heads other) :
      branch.relocated names target other = branch other := by
    rw [Branch.relocated, if_neg fun isBelow => notOwn (ownTarget.of_below isBelow),
      if_neg fun isBelow => notOwn (own.of_below isBelow)]
  refine sees.becomes_of (sees.shows.relocate own.nonempty ownTarget.nonempty apart apart')
    (fun other isOwn => ?_) (fun other notOwn => unmoved view notOwn)
    (fun other notOwn => unmoved branch notOwn) fun other entry identity isOwn found isIdentity => ?_
  · rw [Branch.relocated, Branch.relocated, sees.same other isOwn, sees.same _ (own.append _)]
  · rw [Branch.relocated] at found
    split at found
    · exact .inr ⟨_, entry, own.append _, found, isIdentity⟩
    · split at found
      · cases found
      · exact .inr ⟨other, entry, isOwn, found, isIdentity⟩

end Sees

end

end DocStore.Disk
