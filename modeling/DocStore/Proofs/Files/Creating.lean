import DocStore.Proofs.Files.Collections
/-!
# Creating collections among strays

A collection is created by moving a prepared directory to its place.  The move succeeds when nothing
is there, and also when there is a directory in which nothing lies, whose place it takes; a file
makes it fail.  Any other directory stops the move, and the creation takes it for a collection that
somebody else has created meanwhile, whether or not it is one (`Creates.stray`).

So a creation that ends leaves a collection, and tells whether there was none before, unless the
directory of a stray is there (`create_leaves_collection_iff`).  Nothing but the collection has
changed in any case, and nothing is left of what was prepared (`create_view`).
-/

set_option autoImplicit false

namespace DocStore.FileStore

open Disk (Branch Entry Path Place Plain Sees Shows Under Vacant)
open Files (Named)
open Host (Machine Secures anyMoves marked)

/-! ## What is under the name -/

/-- Nothing lies under a name but perhaps a directory in which nothing lies. -/
def Clear (view : Branch) (name : String) : Prop :=
  view [name] = none
    ∨ (∃ identity, view [name] = some (.directory identity)) ∧ ∀ child, view [name, child] = none

/-- A directory that holds something lies under a name, and is no collection. -/
def Stray (view : Branch) (name : String) : Prop :=
  (∃ identity, view [name] = some (.directory identity)) ∧ (∃ child, view [name, child] ≠ none)
    ∧ hasCollection view name = false

/-- A branch with an empty collection under a name in place of what was there. -/
def created (view : Branch) (name : String) (identities : Nat × Nat × Nat) : Branch :=
  staged (view.without [name]) name identities

/-- What a creation tells of an entry that it does not replace: a directory is taken for a
collection, and a file makes the move fail. -/
def refusal (store : FileStore) (name : String) (entry : Entry) : Except Failure Bool :=
  if entry.isDirectory then .ok false
  else .error (.ofCall (.directory (store.collectionPath name).text) .notDirectory)

/-- What a creation tells of what lies under the name, and what it leaves. -/
inductive Creates (store : FileStore) (view : Branch) (name : String) :
    Except Failure Bool → Branch → Prop
  | there (exist : hasCollection view name = true) : Creates store view name (.ok false) view
  | new (clear : Clear view name) (identities : Nat × Nat × Nat) :
      Creates store view name (.ok true) (created view name identities)
  | stray (isStray : Stray view name) : Creates store view name (.ok false) view
  | file {identity : Nat} {content : String} (isFile : view [name] = some (.file identity content)) :
      Creates store view name (refusal store name (.file identity content)) view

section

variable {store : FileStore} {view view' : Branch} {name : String}

/-- Where nothing else lies under a name, what is prepared there does not depend on the rest. -/
theorem staged_self {other : String} (free : ∀ rest, view (name :: rest) = none)
    (free' : ∀ rest, view' (other :: rest) = none) (identities : Nat × Nat × Nat)
    (rest : List String) :
    staged view name identities (name :: rest) = staged view' other identities (other :: rest) := by
  simp [staged, Function.update_apply, free, free']

theorem created_of_ne {other : String} (differ : other ≠ name) (identities : Nat × Nat × Nat)
    (rest : List String) : created view name identities (other :: rest) = view (other :: rest) := by
  rw [created, staged_of_ne differ, Branch.without_singleton, if_neg differ]

theorem staged_top (staging : String) (identities : Nat × Nat × Nat) :
    staged view staging identities [staging] = some (.directory identities.1) := by
  simp [staged]

/-- A creation changes nothing but what is under the name. -/
theorem Creates.elsewhere {result : Except Failure Bool} (creates : Creates store view name result view')
    {names : List String} (notName : ¬ Under {name} names) : view' names = view names := by
  cases creates with
  | there | stray | file => rfl
  | new _ identities =>
      cases names with
      | nil => rw [created, staged_nil, Branch.without_singleton_nil]
      | cons other rest => exact created_of_ne notName identities rest

/-- What has been created is a collection. -/
theorem hasCollection_created (identities : Nat × Nat × Nat) :
    hasCollection (created view name identities) name = true := by
  simp [hasCollection, created, staged, Entry.isDirectory]

theorem not_hasCollection_of_clear (clear : Clear view name) : hasCollection view name = false := by
  rcases clear with missing | ⟨_, nothing⟩
  · simp [hasCollection, missing]
  · simp [hasCollection, nothing]

/-- What is prepared under a hidden name and moved to its place leaves nothing else behind. -/
theorem without_relocated_staged {staging : String} (differ : name ≠ staging)
    (free : ∀ rest, view (staging :: rest) = none) (identities : Nat × Nat × Nat) :
    ((staged view staging identities).relocated [staging] [name]).without [staging]
      = created view name identities := by
  funext names
  cases names with
  | nil =>
      rw [Branch.without_singleton_nil, Branch.relocated_singleton_nil, staged_nil, created,
        staged_nil, Branch.without_singleton_nil]
  | cons other rest =>
      rw [Branch.without_singleton, Branch.relocated_singleton]
      by_cases isStaging : other = staging
      · rw [if_pos isStaging, isStaging, created_of_ne differ.symm, free]
      · rw [if_neg isStaging, if_neg isStaging]
        by_cases isName : other = name
        · rw [if_pos isName, isName]
          refine staged_self free (fun rest => ?_) identities rest
          rw [Branch.without_singleton, if_pos rfl]
        · rw [if_neg isName, staged_of_ne isStaging, created_of_ne isName]

/-- What is prepared under a hidden name and removed leaves nothing behind. -/
theorem without_staged {staging : String} (free : ∀ rest, view (staging :: rest) = none)
    (identities : Nat × Nat × Nat) :
    (staged view staging identities).without [staging] = view := by
  funext names
  cases names with
  | nil => rw [Branch.without_singleton_nil, staged_nil]
  | cons other rest =>
      rw [Branch.without_singleton]
      by_cases isStaging : other = staging
      · rw [if_pos isStaging, isStaging, free]
      · rw [if_neg isStaging, staged_of_ne isStaging]

end

/-! ## Moving what has been prepared -/

section

variable {store : FileStore} {origin : Disk} {home : Place} {heads : Set String} {view : Branch}
  (vacant : Vacant origin store.root home) {name staging : String} (own : name ∈ heads)
  (named : Named name)
include vacant own named

section

variable (ownStaging : staging ∈ heads) (plain : Plain staging) (differ : name ≠ staging)
  {identity : Nat} (isDirectory : view [staging] = some (.directory identity))
include ownStaging plain differ isDirectory

omit own named differ in
/-- What has been prepared is found where it is moved from. -/
theorem locateEntry_staging {disk : Disk} {branch : Branch}
    (sees : Sees origin home heads view branch disk) :
    disk.locateEntry (store.root.trimmed ++ [staging])
      = .ok ⟨home ++ [staging], some (.directory identity), false⟩ := by
  have plainNames : ∀ other ∈ [] ++ [staging], Plain other := by simpa using plain
  have located := sees.shows.locateEntry vacant (Branch.leads_nil branch) plainNames
    (show 0 < 3 by decide)
  rwa [List.nil_append, sees.same [staging] ownStaging, isDirectory] at located

/-- What has been prepared takes a place that is clear. -/
theorem settles (clear : Clear view name) :
    Secures anyMoves origin home heads view
      (store.settle name (store.root.trimmed ++ [staging])) (.ok true)
      (Eq (view.relocated [staging] [name])) := by
  have plainNames : ∀ other ∈ [] ++ [name], Plain other := by simpa using named.plain
  rw [settle, collectionPath_eq vacant.resolved named]
  refine .tryCall_bind fun disk branch sees => ?_
  have located := locateEntry_staging vacant ownStaging plain isDirectory sees
  have renames : disk.rename (store.root.trimmed ++ [staging]) (store.root.trimmed ++ [name])
      = .ok (disk.relocate (home ++ [staging]) (home ++ [name])) := by
    rcases clear with missing | ⟨⟨identity', isThere⟩, nothing⟩
    · exact sees.shows.rename_free vacant (Branch.leads_nil branch) plainNames
        (show 0 < 3 by decide) located ((sees.same [name] own).trans missing) (apart differ.symm)
        (apart differ)
    · have isVacant : disk.isVacant (home ++ ([] ++ [name])) = true := by
        refine (sees.shows.isVacant_iff _).mpr fun child => ?_
        exact (sees.same [name, child] own).trans (nothing child)
      have replaces := sees.shows.rename_occupied vacant (Branch.leads_nil branch) plainNames
        (show 0 < 3 by decide) located ((sees.same [name] own).trans isThere) (apart differ.symm)
        (apart differ)
      rwa [isVacant] at replaces
  have moved := sees.relocate (show Under heads [staging] from ownStaging)
    (show Under heads [name] from own) (apart differ.symm) (apart differ)
  have answers := congrArg disk.changing renames
  refine ⟨.ok (), _, congrArg Prod.fst answers, ?_, .single trivial, .pure true rfl⟩
  exact (congrArg Prod.snd answers).symm ▸ moved

/-- What has been prepared takes the place of nothing else. -/
theorem settles_not {entry : Entry} (isThere : view [name] = some entry)
    (occupied : entry.isDirectory = true → ∃ child, view [name, child] ≠ none) :
    Secures anyMoves origin home heads view
      (store.settle name (store.root.trimmed ++ [staging]))
      (refusal store name entry) (Eq view) := by
  have plainNames : ∀ other ∈ [] ++ [name], Plain other := by simpa using named.plain
  rw [settle, refusal, collectionPath_eq vacant.resolved named]
  have renames (disk : Disk) (branch : Branch) (sees : Sees origin home heads view branch disk) :
      disk.rename (store.root.trimmed ++ [staging]) (store.root.trimmed ++ [name])
        = .error (if entry.isDirectory then .notEmpty else .notDirectory) := by
    have located := locateEntry_staging vacant ownStaging plain isDirectory sees
    have refuses := sees.shows.rename_occupied vacant (Branch.leads_nil branch) plainNames
      (show 0 < 3 by decide) located ((sees.same [name] own).trans isThere) (apart differ.symm)
      (apart differ)
    cases isDirectory : entry.isDirectory with
    | false => rwa [isDirectory] at refuses
    | true =>
        obtain ⟨child, isChild⟩ := occupied isDirectory
        have notVacant : disk.isVacant (home ++ ([] ++ [name])) = false := by
          refine Bool.eq_false_iff.mpr fun isVacant => isChild ?_
          exact (sees.same [name, child] own).symm.trans
            ((sees.shows.isVacant_iff _).mp isVacant child)
        rwa [isDirectory, notVacant] at refuses
  refine .reads_bind (fun disk branch sees => congrArg disk.changing (renames disk branch sees)) ?_
  cases entry.isDirectory with
  | true => exact .pure false rfl
  | false => exact .fail _ rfl

end

/-! ## Creating -/

/-- Where no collection is yet, a creation prepares one, moves it and removes what is left under the
hidden name; `settles` says what comes of the move. -/
theorem create_missing (missing : hasCollection view name = false)
    (noLink : ∀ target, view [name] ≠ some (.link target))
    (noLink' : ∀ target, view [name, "docs"] ≠ some (.link target))
    (unused : ∀ number rest, view ((".staging-" ++ Machine.freshName number) :: rest) = none)
    {result : Except Failure Bool} {holds : Branch → Prop}
    (settles : ∀ (heads : Set String) (staging : String) (identities : Nat × Nat × Nat),
      name ∈ heads → staging ∈ heads → Plain staging → name ≠ staging →
      (∀ rest, view (staging :: rest) = none) →
      Secures anyMoves origin home heads (staged view staging identities)
        (store.settle name (store.root.trimmed ++ [staging])) result
        fun view' => holds (view'.without [staging]))
    (elsewhere : ∀ view' names, holds view' → ¬ Under {name} names → view' names = view names) :
    Secures anyMoves origin home heads view (store.create name) result holds := by
  intro inside
  have looks : Secures anyMoves origin home heads view (store.exists? name) (.ok _) (Eq view) :=
    exists?_view vacant own named noLink noLink'
  rw [missing] at looks
  unfold create
  refine Secures.bind_same looks (.bind_same (ensures_root vacant) (.marks_bind (fun number => ?_)
    fun number view' held inside' names notOwn => ?_)) inside
  · have plain := Files.mark_staging.plain number
    have hidden := Files.mark_staging.isHidden number
    have free := unused number
    have differ : name ≠ ".staging-" ++ Machine.freshName number := by
      rintro rfl
      exact absurd named.seen (by rw [hidden]; decide)
    have own' : name ∈ heads ∪ marked number := Set.mem_union_left _ own
    have ownStaging : ".staging-" ++ Machine.freshName number ∈ heads ∪ marked number :=
      Set.mem_union_right _ (.inl rfl)
    generalize heads ∪ marked number = heads at own' ownStaging ⊢
    generalize ".staging-" ++ Machine.freshName number = staging at *
    have stages : Secures anyMoves origin home heads view
        (store.stage name (store.root.trimmed ++ [staging])) result
        fun view' => holds (view'.without [staging]) := by
      have prepared : Secures (Advances Set.univ) origin home heads view
          (prepare (store.root.trimmed ++ [staging])) (.ok ()) _ :=
        prepares vacant ownStaging plain hidden free
      rw [stage_eq]
      refine .bind prepared.any fun _ prepared => ?_
      obtain ⟨identities, rfl⟩ := prepared
      exact settles heads staging identities own' ownStaging plain differ free
    refine .andFinally stages fun view' held => ?_
    have swept : Secures (Advances Set.univ) origin home heads view'
        (sweep (store.root.trimmed ++ [staging])) (.ok ()) _ :=
      sweeps vacant ownStaging plain hidden
    refine swept.any.mono fun _ same => ?_
    exact same ▸ held
  · have notName : ¬ Under {name} names := fun isName =>
      notOwn (isName.mono (Set.singleton_subset_iff.mpr own))
    rw [elsewhere view' names held notName, inside names notOwn]

section

variable (noLink : ∀ target, view [name] ≠ some (.link target))
  (noLink' : ∀ target, view [name, "docs"] ≠ some (.link target))
  (unused : ∀ number rest, view ((".staging-" ++ Machine.freshName number) :: rest) = none)
include noLink noLink' unused

/-- A collection is created where the place is clear. -/
theorem create_clear (clear : Clear view name) :
    Secures anyMoves origin home heads view (store.create name) (.ok true)
      (Creates store view name (.ok true)) := by
  refine create_missing vacant own named (not_hasCollection_of_clear clear) noLink noLink' unused
    (fun heads staging identities own ownStaging plain differ free => ?_)
    fun view' names creates notName => creates.elsewhere notName
  have clear' : Clear (staged view staging identities) name := by
    simp only [Clear, staged_of_ne differ]
    exact clear
  refine (settles vacant own named ownStaging plain differ (staged_top staging identities)
    clear').mono fun view' same => ?_
  rw [← same, without_relocated_staged differ free]
  exact .new clear identities

/-- No collection is created where the place is not clear. -/
theorem create_occupied (exist : hasCollection view name = false) {entry : Entry}
    (isThere : view [name] = some entry)
    (occupied : entry.isDirectory = true → ∃ child, view [name, child] ≠ none) :
    Secures anyMoves origin home heads view (store.create name) (refusal store name entry)
      (Creates store view name (refusal store name entry)) := by
  have creates : Creates store view name (refusal store name entry) view := by
    cases entry with
    | directory identity => exact .stray ⟨⟨identity, isThere⟩, occupied rfl, exist⟩
    | file identity content => exact .file isThere
    | link target => exact absurd isThere (noLink target)
  refine create_missing vacant own named exist noLink noLink' unused
    (fun heads staging identities own ownStaging plain differ free => ?_)
    fun view' names creates notName => creates.elsewhere notName
  have isThere' := (staged_of_ne differ identities []).trans isThere
  have occupied' (isDirectory : entry.isDirectory = true) :
      ∃ child, staged view staging identities [name, child] ≠ none := by
    obtain ⟨child, isChild⟩ := occupied isDirectory
    exact ⟨child, by rwa [staged_of_ne differ]⟩
  refine (settles_not vacant own named ownStaging plain differ (staged_top staging identities)
    isThere' occupied').mono fun view' same => ?_
  rw [← same, without_staged free]
  exact creates

/-- **What a creation does** with whatever lies under the name, as long as no links lie on the way:
it tells and leaves what `Creates` says, and nothing is left of what it prepares. -/
theorem create_view :
    ∃ result, Secures anyMoves origin home heads view (store.create name) result
      (Creates store view name result) := by
  by_cases exist : hasCollection view name = true
  · have looks : Secures anyMoves origin home heads view (store.exists? name) (.ok _) (Eq view) :=
      exists?_view vacant own named noLink noLink'
    rw [exist] at looks
    exact ⟨.ok false, .bind_same looks (.pure false (.there exist))⟩
  · by_cases clear : Clear view name
    · exact ⟨.ok true, create_clear vacant own named noLink noLink' unused clear⟩
    · obtain ⟨entry, isThere⟩ : ∃ entry, view [name] = some entry :=
        Option.ne_none_iff_exists'.mp fun nothing => clear (.inl nothing)
      refine ⟨_, create_occupied vacant own named noLink noLink' unused (by simpa using exist) isThere
        fun isDirectory => ?_⟩
      by_contra nothing
      refine clear (.inr ⟨?_, fun child => by_contra fun isChild => nothing ⟨child, isChild⟩⟩)
      cases entry with
      | directory identity => exact ⟨identity, isThere⟩
      | file _ _ | link _ => cases isDirectory

omit own in
/-- **A creation leaves a collection and tells whether there was none**, once it ends, exactly when
no directory of a stray is under the name. -/
theorem create_leaves_collection_iff {machine : Machine}
    (shows : Shows origin home view machine.disk) {told : Bool}
    (ends : (machine.attempt (store.create name)).1 = .ok told) :
    (((machine.attempt (store.create name)).2.attempt (store.exists? name)).1 = .ok true
        ∧ (machine.attempt (store.exists? name)).1 = .ok (!told))
      ↔ ¬ Stray view name := by
  have whole : name ∈ Set.univ := Set.mem_univ name
  have looks : Secures anyMoves origin home Set.univ view (store.exists? name) _ _ :=
    exists?_view vacant whole named noLink noLink'
  obtain ⟨result, creates⟩ := create_view vacant whole named noLink noLink' unused
  obtain ⟨after, view', run, -, shows', created⟩ := creates.yields shows
  have same : machine.attempt (store.create name) = (result, after) := run
  rw [same] at ends ⊢
  rw [looks.attempt_eq shows]
  cases created with
  | there exist =>
      obtain rfl := Except.ok.inj ends
      rw [looks.attempt_eq shows', exist]
      simp [Stray, exist]
  | new clear identities =>
      obtain rfl := Except.ok.inj ends
      have looks' : Secures anyMoves origin home Set.univ (created view name identities)
          (store.exists? name) _ _ :=
        exists?_view vacant whole named (by simp [created, staged]) (by simp [created, staged])
      rw [looks'.attempt_eq shows', hasCollection_created, not_hasCollection_of_clear clear]
      refine iff_of_true ⟨rfl, rfl⟩ ?_
      rintro ⟨⟨identity, isThere⟩, ⟨child, isChild⟩, -⟩
      rcases clear with nothing | ⟨_, nothing⟩
      · rw [nothing] at isThere
        cases isThere
      · exact isChild (nothing child)
  | stray isStray =>
      rw [looks.attempt_eq shows', isStray.2.2]
      exact iff_of_false (fun both => by simpa using both.1) (not_not.mpr isStray)
  | file isFile => cases ends

end

end

end DocStore.FileStore
