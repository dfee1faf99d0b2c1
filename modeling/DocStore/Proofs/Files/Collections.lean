import DocStore.Proofs.Files.Listings
/-!
# Operations on collections

A collection is created under a hidden name and moved to its place, and dropped by moving it to a
hidden name; the hidden names are those of a fresh name, so that nobody else uses them.  At the end
nothing of that is left: `serves_create`, `serves_drop` and `serves_collections` say that the root
holds what `Cabinet.perform` says.  `serves` puts the operations of a storage in files together.
-/

set_option autoImplicit false

namespace DocStore

open Host (marked)

theorem isHidden_of_mem_marked {number : Nat} {head : String} (isMarked : head ∈ marked number) :
    Files.isHidden head = true := by
  rcases isMarked with rfl | rfl
  · exact Files.mark_staging.isHidden number
  · exact Files.mark_trash.isHidden number

theorem ne_lockDirectory_of_mem_marked {number : Nat} {head : String}
    (isMarked : head ∈ marked number) : head ≠ lockDirectory := by
  rcases isMarked with rfl | rfl <;> exact Files.marked_ne number (by decide)

/-- Nothing lies under the hidden names of a fresh name. -/
theorem Keeps.nothing_of_marked {layouts : Set Json.Layout} {cabinet : Cabinet}
    {locked branch : Disk.Branch} (keeps : Keeps layouts cabinet locked branch) {number : Nat}
    {head : String} (isMarked : head ∈ marked number) (rest : List String) :
    branch (head :: rest) = none :=
  keeps.nothing_of_missing (ne_lockDirectory_of_mem_marked isMarked)
    (keeps.missing_of_hidden (isHidden_of_mem_marked isMarked)) rest

/-- Who sees a cabinet sees nothing under the hidden names of a fresh name. -/
theorem Keeps.inside {layouts : Set Json.Layout} {cabinet : Cabinet} {locked view : Disk.Branch}
    {heads : Set String} (number : Nat) (keeps : Keeps layouts cabinet locked view)
    (inside : view.Inside (heads ∪ marked number)) : view.Inside heads := by
  intro names notOwn
  by_cases own : Disk.Under (heads ∪ marked number) names
  · cases names with
    | nil => exact own.elim
    | cons head rest => exact keeps.nothing_of_marked (own.resolve_left notOwn) rest
  · exact inside names own

namespace FileStore

open Disk (Branch Entry Path Place Plain Sees Under Vacant)
open Files (Named Stored isHidden keyName storedEnding)
open Host (Action Machine Secures)

/-! ## The branch while a collection is prepared -/

/-- A branch with an empty collection prepared under a name. -/
def staged (branch : Branch) (name : String) (identities : Nat × Nat × Nat) : Branch :=
  Function.update (Function.update (Function.update branch [name] (some (.directory identities.1)))
    [name, "docs"] (some (.directory identities.2.1)))
    [name, "constraints"] (some (.directory identities.2.2))

section

variable {branch : Branch}

theorem staged_of_ne {name other : String} (differ : other ≠ name) (identities : Nat × Nat × Nat)
    (rest : List String) : staged branch name identities (other :: rest) = branch (other :: rest) := by
  simp [staged, differ]

theorem staged_nil (name : String) (identities : Nat × Nat × Nat) :
    staged branch name identities [] = branch [] := by
  simp [staged]

/-- What is prepared is an empty collection. -/
theorem node_staged {name : String} (free : ∀ rest, branch (name :: rest) = none)
    (identities : Nat × Nat × Nat) (layout : Json.Layout) (rest : List String) :
    (staged branch name identities (name :: rest)).map Entry.node
      = Drawer.node? layout ⟨[], []⟩ rest := by
  match rest with
  | [] => simp [staged, Drawer.node?, Entry.node]
  | [part] =>
      by_cases isChecks : part = "constraints"
      · simp [staged, isChecks, Drawer.node?, Entry.node]
      · by_cases isDocuments : part = "docs"
        · simp [staged, isDocuments, Drawer.node?, Entry.node]
        · simp [staged, isChecks, isDocuments, Drawer.node?, free]
  | [_, _] => simp [staged, Drawer.node?, free]
  | _ :: _ :: _ :: _ => simp [staged, Drawer.node?, free]

end

theorem apart {first second : String} (differ : first ≠ second) :
    Disk.below [first] [second] = false := by
  rw [Branch.below_singleton]
  simpa using differ

/-! ## Dropping -/

section

variable {moves : Nat → Branch → Branch → Prop} {store : FileStore} {origin : Disk} {home : Place}
  {heads : Set String} {view : Branch}

/-- Moving something to a place where nothing is and removing it there is removing it. -/
theorem without_relocated {name trash : String} (free : ∀ rest, view (trash :: rest) = none) :
    (view.relocated [name] [trash]).without [trash] = view.without [name] := by
  funext names
  cases names with
  | nil =>
      rw [Branch.without_singleton_nil, Branch.relocated_singleton_nil,
        Branch.without_singleton_nil]
  | cons other rest =>
      rw [Branch.without_singleton, Branch.without_singleton, Branch.relocated_singleton]
      by_cases isTrash : other = trash
      · rw [if_pos isTrash, isTrash, free, ite_self]
      · rw [if_neg isTrash, if_neg isTrash]

/-- A drop removes whatever lies under the name, be it a collection, another directory, a file or a
link, and tells whether something did. -/
theorem drops (vacant : Vacant origin store.root home) {name : String} (own : name ∈ heads)
    (named : Named name)
    (unused : ∀ number rest, view ((".trash-" ++ Machine.freshName number) :: rest) = none)
    (vanishes : ∀ given number,
      moves given view (view.relocated [name] [".trash-" ++ Machine.freshName number]))
    (sweeps : ∀ given number view', moves given view'
      (view'.without [".trash-" ++ Machine.freshName number])) :
    Secures moves origin home heads view (store.drop name) (.ok (view [name]).isSome)
      (Eq (if (view [name]).isSome then view.without [name] else view)) := by
  intro inside
  unfold drop
  refine Secures.marks_bind (fun number => ?_) (fun number _ same _ => ?_) inside
  · have plain := Files.mark_trash.plain number
    have hidden := Files.mark_trash.isHidden number
    have free := unused number
    have vanishes := fun given => vanishes given number
    have sweeps := fun given => sweeps given number
    have differ : name ≠ ".trash-" ++ Machine.freshName number := by
      rintro rfl
      exact absurd named.seen (by rw [hidden]; decide)
    have own' : name ∈ heads ∪ marked number := Set.mem_union_left _ own
    have ownTrash : ".trash-" ++ Machine.freshName number ∈ heads ∪ marked number :=
      Set.mem_union_right _ (.inr rfl)
    generalize heads ∪ marked number = heads at own' ownTrash ⊢
    generalize ".trash-" ++ Machine.freshName number = trash at *
    have ownName : Under heads [name] := own'
    have plainName : ∀ other ∈ [] ++ [name], Plain other := by simpa using named.plain
    have plainTrash : ∀ other ∈ [] ++ [trash], Plain other := by simpa using plain
    rw [collectionPath_eq vacant.resolved named]
    cases found : view [name] with
    | none =>
        refine .reads_bind (fun disk branch sees =>
          (?_ : disk.answer _ = (.error .noEntry, disk))) (.pure false rfl)
        have target := sees.shows.locateEntry vacant (Branch.leads_nil branch) plainTrash
          (show 0 < 3 by decide)
        exact congrArg disk.changing (sees.shows.rename_absent vacant
          (sees.absent ownName ⟨[], name, [], rfl, Branch.leads_nil view, found⟩) plainName
          (show 1 ≤ 3 by decide) target)
    | some entry =>
        refine .tryCall_bind fun disk branch sees => ?_
        have located := sees.shows.locateEntry vacant (Branch.leads_nil branch) plainName
          (show 0 < 3 by decide)
        rw [List.nil_append, sees.same [name] ownName, found] at located
        have answers : disk.answer (.rename (store.root.trimmed ++ [name]) (store.root.child trash))
            = (.ok (), disk.relocate (home ++ [name]) (home ++ [trash])) :=
          congrArg disk.changing (sees.shows.rename_free vacant (Branch.leads_nil branch)
            plainTrash (show 0 < 3 by decide) located
            ((sees.same [trash] ownTrash).trans (free [])) (apart differ) (apart differ.symm))
        have moved := sees.relocate ownName (show Under heads [trash] from ownTrash)
          (apart differ) (apart differ.symm)
        refine ⟨.ok (), _, congrArg Prod.fst answers, by
          rw [answers]
          exact moved, .single (vanishes _), ?_⟩
        refine .tryCall_bind fun disk branch sees => ?_
        have answers : disk.answer (.removeTree (store.root.child trash))
            = (.ok (), disk.without (home ++ [trash])) :=
          congrArg disk.changing (sees.shows.removeTree_below vacant (Branch.leads_nil branch)
            plainTrash (show 0 < 3 by decide))
        exact ⟨.ok (), _, congrArg Prod.fst answers, (congrArg Prod.snd answers).symm ▸
          sees.without (show Under heads [trash] from ownTrash), @.single _ _ _ _ (sweeps _ _),
          .pure true (without_relocated free).symm⟩
  · subst same
    split
    · intro names notOwn
      rw [Branch.without, inside names notOwn, ite_self]
    · exact inside

end

section

variable {store : FileStore} {origin : Disk} {home : Place} {heads : Set String}
  {layouts : Set Json.Layout} {cabinet : Cabinet} {locked view : Branch}
  (vacant : Vacant origin store.root home) (keeps : Keeps layouts cabinet locked view)

/-! ## Creating -/

/-- Prepare the directories of a collection below a path. -/
def prepare (staging : Path) : Action Unit := do
  Files.ensureDirectory (staging.child "docs")
  Files.ensureDirectory (staging.child "constraints")

/-- Move what has been prepared to its place, unless something is there. -/
def settle (store : FileStore) (collection : String) (staging : Path) : Action Bool := do
  let target := store.collectionPath collection
  match ← Host.tryCall (.rename staging target) with
  | .ok () => return true
  | .error errno =>
      if errno = .notEmpty ∨ errno = .exists then return false
      else Attempt.fail (.ofCall (.directory target.text) errno)

/-- A collection is prepared and then moved. -/
theorem stage_eq (collection : String) (staging : Path) :
    store.stage collection staging = prepare staging >>= fun _ => store.settle collection staging := by
  rw [prepare, bind_assoc]
  rfl

include vacant

/-- The root is there already. -/
theorem ensures_root {moves : Nat → Branch → Branch → Prop} :
    Secures moves origin home heads view (Files.ensureDirectory store.root) (.ok ()) (Eq view) := by
  refine .ensureDirectory vacant.resolved.nonempty fun disk branch sees => ?_
  rw [sees.shows.makeDirectories_root vacant]
  exact ⟨view, rfl, sees.becomes, .refl, rfl⟩

/-- A directory for constraints is created under a hidden name when it is not there. -/
theorem ensures_checks {hidden : String} (own : hidden ∈ heads) (isHidden : isHidden hidden = true)
    (plain : ∀ other ∈ [hidden] ++ ["constraints"], Plain other) {identity : Nat}
    (isDirectory : view [hidden] = some (.directory identity))
    (free : view [hidden, "constraints"] = none) :
    Secures (Advances layouts) origin home heads view
      (Files.ensureDirectory (store.root.trimmed ++ ([hidden] ++ ["constraints"]))) (.ok ())
      fun view' => ∃ identity,
        view' = Function.update view [hidden, "constraints"] (some (.directory identity)) := by
  refine .ensureDirectory (by simp) fun disk branch sees => ?_
  have own' : Under heads ([hidden] ++ ["constraints"]) := own
  rw [sees.shows.makeDirectories_free vacant
    (sees.leads own' ((Branch.leads_nil view).concat isDirectory)) plain (show 1 < 3 by decide)
    ((sees.same _ own').trans free)]
  refine ⟨_, rfl, sees.addDirectory own', .single (.of_hidden isHidden ?_ ?_), _, rfl⟩
  · intro head rest differ
    exact Function.update_of_ne (by simp [differ]) ..
  · exact Function.update_of_ne (by simp) ..

/-- The directories of a collection are prepared under a hidden name. -/
theorem prepares {staging : String} (own : staging ∈ heads) (plain : Plain staging)
    (hidden : isHidden staging = true) (free : ∀ rest, view (staging :: rest) = none) :
    Secures (Advances layouts) origin home heads view
      (prepare (store.root.trimmed ++ [staging])) (.ok ())
      fun view' => ∃ identities, view' = staged view staging identities := by
  have plainPart {part : String} (isPart : isPart part) :
      ∀ name ∈ [] ++ [staging] ++ [part], Plain name := by
    intro name member
    simp only [List.nil_append, List.cons_append, List.mem_cons, List.not_mem_nil, or_false]
      at member
    rcases member with rfl | rfl
    · exact plain
    · exact isPart.stored
  rw [prepare, Path.child_concat _ plain.nonempty, Path.child_concat _ plain.nonempty]
  have makes : Secures (Advances layouts) origin home heads view
      (Files.ensureDirectory (store.root.trimmed ++ ([] ++ [staging] ++ ["docs"]))) (.ok ())
      fun view' => ∃ first second, view' = Function.update (Function.update view [staging]
        (some (.directory first))) [staging, "docs"] (some (.directory second)) := by
    refine .ensureDirectory (by simp) fun disk branch sees => ?_
    have own' (rest : List String) : Under heads (staging :: rest) := own
    rw [sees.shows.makeDirectories_missing vacant (Branch.leads_nil branch) (plainPart (.inl rfl))
      (show 1 < 3 by decide) ((sees.same _ (own' [])).trans (free []))
      ((sees.same _ (own' ["docs"])).trans (free ["docs"]))]
    refine ⟨_, rfl, (sees.addDirectory (own' [])).next fun _ sees =>
      sees.addDirectory (own' ["docs"]), .single ?_, _, _, rfl⟩
    have later : disk.nextIdentity ≤ (disk.addDirectory (home ++ [staging])).nextIdentity :=
      Nat.le_succ _
    refine .makes hidden later (sees.isNew later) (fun head rest differ => ?_)
      (shelf?_eq_some_iff.mpr (Function.update_self ..))
    rw [Function.update_of_ne (by simp [differ]), Function.update_of_ne (by simp [differ])]
  refine .bind makes fun _ made => ?_
  obtain ⟨first, second, rfl⟩ := made
  refine (ensures_checks vacant own hidden (plainPart (.inr rfl)) (by simp; rfl)
    (by simp [free])).mono fun _ made => ?_
  obtain ⟨third, rfl⟩ := made
  exact ⟨(first, second, third), rfl⟩

/-- A prepared collection takes its place, where no collection is yet. -/
theorem stages {name staging : String} (own : name ∈ heads) (ownStaging : staging ∈ heads)
    (plain : Plain staging) (hidden : isHidden staging = true) (inUse : InUse staging)
    (differ : name ≠ staging) (free : ∀ rest, view (staging :: rest) = none) (named : Named name)
    (vacancy : ∀ rest, view (name :: rest) = none) :
    Secures (Advances layouts) origin home heads view
      (store.stage name (store.root.trimmed ++ [staging])) (.ok true)
      fun view' => ∃ identities,
        view' = (staged view staging identities).relocated [staging] [name] := by
  rw [stage_eq]
  refine .bind (prepares vacant ownStaging plain hidden free) fun _ prepared => ?_
  obtain ⟨identities, rfl⟩ := prepared
  rw [settle, collectionPath_eq vacant.resolved named]
  refine .tryCall_bind fun disk branch sees => ?_
  have located := sees.shows.locateEntry vacant (Branch.leads_nil _)
    (show ∀ other ∈ [] ++ [staging], Plain other by simpa using plain) (show 0 < 3 by decide)
  have isDirectory : branch ([] ++ [staging]) = some (.directory identities.1) :=
    (sees.same [staging] ownStaging).trans (by simp [staged])
  rw [isDirectory] at located
  have isFree : branch ([] ++ [name]) = none :=
    (sees.same [name] own).trans ((staged_of_ne differ identities []).trans (vacancy []))
  have answers := congrArg disk.changing (sees.shows.rename_free vacant (Branch.leads_nil _)
    (show ∀ other ∈ [] ++ [name], Plain other by simpa using named.plain) (show 0 < 3 by decide)
    located isFree (apart differ.symm) (apart differ))
  have moved := sees.relocate (show Under heads [staging] from ownStaging)
    (show Under heads [name] from own) (apart differ.symm) (apart differ)
  refine ⟨.ok (), _, congrArg Prod.fst answers, ?_, .single ?_, .pure true ⟨identities, rfl⟩⟩
  · exact (congrArg Prod.snd answers).symm ▸ moved
  · refine .appears hidden named inUse (fun rest => ?_) (by simp [staged]; rfl) (by simp [staged]; rfl)
      fun file => by simp [staged, free]
    rw [staged_of_ne differ, vacancy]

omit vacant in
/-- A prepared collection in its place is all that has changed. -/
theorem keeps_staged {name staging : String} (keeps : Keeps layouts cabinet locked view)
    (differ : name ≠ staging) (noLock : staging ≠ lockDirectory)
    (missing : cabinet.drawer? staging = none) (named : Named name)
    (identities : Nat × Nat × Nat) :
    Keeps layouts (cabinet.putDrawer name ⟨[], []⟩) locked
      (((staged view staging identities).relocated [staging] [name]).without [staging]) where
  orderly := keeps.orderly.putDrawer named Drawer.slotted_empty
  kept names noLockNames := by
    obtain ⟨layout, member, same⟩ := keeps.kept names noLockNames
    refine ⟨layout, member, ?_⟩
    cases names with
    | nil =>
        rw [Branch.without_singleton_nil, Branch.relocated_singleton_nil, staged_nil, same]
        rfl
    | cons other rest =>
        rw [Branch.without_singleton, Branch.relocated_singleton, Cabinet.node?_putDrawer]
        by_cases isName : other = name
        · rw [isName, if_neg differ, if_pos rfl, if_pos rfl]
          exact node_staged (keeps.nothing_of_missing noLock missing) identities layout rest
        · rw [if_neg isName, if_neg isName]
          by_cases isStaging : other = staging
          · rw [if_pos isStaging, isStaging, Cabinet.node?, missing]
            rfl
          · rw [if_neg isStaging, if_neg isStaging, staged_of_ne isStaging, same]
  locked names := by
    rw [Branch.without_singleton, if_neg noLock.symm, Branch.relocated_singleton,
      if_neg named.ne_lockDirectory.symm, if_neg noLock.symm, staged_of_ne noLock.symm,
      keeps.locked]

/-- What is left of a hidden directory is removed. -/
theorem sweeps {hidden : String} (own : hidden ∈ heads) (plain : Plain hidden)
    (isHidden : isHidden hidden = true) :
    Secures (Advances layouts) origin home heads view (sweep (store.root.trimmed ++ [hidden])) (.ok ())
      (Eq (view.without [hidden])) := by
  refine .callAs rfl (fun _ => .single (.sweeps isHidden)) fun disk branch sees => ?_
  have answers := congrArg disk.changing (sees.shows.removeTree_below vacant
    (Branch.leads_nil branch) (show ∀ other ∈ [] ++ [hidden], Plain other by simpa using plain)
    (show 0 < 3 by decide))
  exact ⟨congrArg Prod.fst answers, (congrArg Prod.snd answers).symm ▸
    sees.without (show Under heads [hidden] from own)⟩

variable {name : String} (own : name ∈ heads) (named : Named name)
include keeps own named

/-- A collection that is not there yet is created empty. -/
theorem serves_create :
    Serves store origin home heads layouts locked cabinet view (.create name) := by
  unfold Serves
  simp only [perform, Cabinet.perform, create]
  have looks := exists?_kept vacant keeps own named
  cases there : cabinet.drawer? name with
  | some drawer =>
      rw [there] at looks
      exact .bind_same looks (.pure false keeps)
  | none =>
      rw [there] at looks
      refine .bind_same looks (.bind_same (ensures_root vacant) (.marks_bind (fun number => ?_)
        fun number _ keeps => keeps.inside number))
      have plain := Files.mark_staging.plain number
      have hidden := Files.mark_staging.isHidden number
      have noLock : ".staging-" ++ Machine.freshName number ≠ lockDirectory :=
        Files.marked_ne number (by decide)
      have differ : name ≠ ".staging-" ++ Machine.freshName number := by
        rintro rfl
        exact absurd named.seen (by rw [hidden]; decide)
      have inUse := inUse_staging number
      have own' : name ∈ heads ∪ marked number := Set.mem_union_left _ own
      have ownStaging : ".staging-" ++ Machine.freshName number ∈ heads ∪ marked number :=
        Set.mem_union_right _ (.inl rfl)
      generalize heads ∪ marked number = heads at own' ownStaging ⊢
      generalize ".staging-" ++ Machine.freshName number = staging at *
      have free := keeps.nothing_of_missing noLock (keeps.missing_of_hidden hidden)
      have vacancy := keeps.nothing_of_missing named.ne_lockDirectory there
      refine .andFinally
        (stages vacant own' ownStaging plain hidden inUse differ free named vacancy)
        fun _ moved => (sweeps vacant ownStaging plain hidden).mono fun _ same => ?_
      obtain ⟨identities, rfl⟩ := moved
      rw [← same]
      exact keeps_staged keeps differ noLock (keeps.missing_of_hidden hidden) named identities

/-! ## Dropping a collection -/

omit vacant own in
/-- Without what lies under its name a collection is gone. -/
theorem keeps_dropped :
    Keeps layouts (cabinet.withoutDrawer name) locked (view.without [name]) where
  orderly := keeps.orderly.withoutDrawer name
  kept names noLockNames := by
    obtain ⟨layout, member, same⟩ := keeps.kept names noLockNames
    refine ⟨layout, member, ?_⟩
    cases names with
    | nil =>
        rw [Branch.without_singleton_nil]
        exact same
    | cons other rest =>
        rw [Branch.without_singleton, Cabinet.node?_withoutDrawer]
        by_cases isName : other = name
        · rw [if_pos isName, if_pos isName]
          rfl
        · rw [if_neg isName, if_neg isName, same]
  locked names := by
    rw [Branch.without_singleton, if_neg named.ne_lockDirectory.symm, keeps.locked]

/-- A collection that is there is moved away and removed. -/
theorem serves_drop :
    Serves store origin home heads layouts locked cabinet view (.drop name) := by
  have unused (number : Nat) (rest : List String) :
      view ((".trash-" ++ Machine.freshName number) :: rest) = none :=
    keeps.nothing_of_marked (show _ ∈ marked number from .inr rfl) rest
  have drops : Secures (Advances layouts) origin home heads view (store.drop name) _ _ :=
    drops vacant own named unused (fun _ number => .vanishes named number)
      fun _ number _ => .sweeps (Files.mark_trash.isHidden number)
  unfold Serves
  simp only [perform, Cabinet.perform]
  cases there : cabinet.drawer? name with
  | none =>
      have missing := keeps.nothing_of_missing named.ne_lockDirectory there []
      rw [missing] at drops
      exact drops.mono fun _ same => same ▸ keeps
  | some drawer =>
      obtain ⟨identity, isDirectory⟩ := keeps.collection_directory there
      rw [isDirectory] at drops
      exact drops.mono fun _ same => same ▸ keeps_dropped keeps named

end

/-! ## Listing -/

section

variable {store : FileStore} {origin : Disk} {home : Place} {heads : Set String}
  {layouts : Set Json.Layout} {cabinet : Cabinet} {locked view : Branch}
  (vacant : Vacant origin store.root home) (keeps : Keeps layouts cabinet locked view)

/-- The directories of the root: the collections, and the one of the locks if it is there. -/
def directories (cabinet : Cabinet) (locked : Branch) : List String :=
  cabinet.collections.map Prod.fst
    ++ if (locked []).map Entry.node = some .directory then [lockDirectory] else []

include keeps

theorem not_collection_lockDirectory : lockDirectory ∉ cabinet.collections.map Prod.fst :=
  Lookup.lookup_eq_none_iff.mp (keeps.missing_of_hidden (by decide))

theorem nodup_directories : (directories cabinet locked).Nodup := by
  unfold directories
  split
  · exact List.nodup_append.mpr ⟨keeps.orderly.distinct, List.nodup_singleton _,
      fun name member other isLock same => not_collection_lockDirectory keeps
        (List.mem_singleton.mp isLock ▸ same ▸ member)⟩
  · rw [List.append_nil]
    exact keeps.orderly.distinct

theorem mem_directories {name : String} : name ∈ directories cabinet locked
    ↔ ∃ entry, view [name] = some entry ∧ entry.kind = .directory := by
  have isDirectory {found : Option Entry} : found.map Entry.node = some .directory
      ↔ ∃ entry, found = some entry ∧ entry.kind = .directory := by
    rw [Option.map_eq_some_iff]
    refine exists_congr fun entry => and_congr_right fun _ => ?_
    cases entry <;> simp [Entry.node, Entry.kind]
  rw [← isDirectory, directories, List.mem_append]
  by_cases isLock : name = lockDirectory
  · rw [isLock, keeps.locked]
    have noCollection := not_collection_lockDirectory keeps
    by_cases isThere : (locked []).map Entry.node = some .directory <;> simp [isThere, noCollection]
  · obtain ⟨layout, _, node⟩ := keeps.node_eq [] isLock
    rw [node, Cabinet.node?]
    have noLock : name ∉ if (locked []).map Entry.node = some .directory then [lockDirectory]
        else [] := by split <;> simp [isLock]
    rw [or_iff_left noLock]
    cases there : cabinet.drawer? name with
    | none => simpa using Lookup.lookup_eq_none_iff.mp there
    | some drawer =>
        simp only [Option.bind_some, Drawer.node?, iff_true]
        by_contra absent
        rw [Cabinet.drawer?, Lookup.lookup_eq_none_iff.mpr absent] at there
        cases there

/-- All directories of the root that are not hidden are collections. -/
theorem filter_directories : (directories cabinet locked).filter (fun name => !isHidden name)
    = cabinet.collections.map Prod.fst := by
  have collections : (cabinet.collections.map Prod.fst).filter (fun name => !isHidden name)
      = cabinet.collections.map Prod.fst := by
    refine List.filter_eq_self.mpr fun name member => ?_
    cases there : cabinet.drawer? name with
    | none => exact absurd member (Lookup.lookup_eq_none_iff.mp there)
    | some drawer => simp [(keeps.named there).seen]
  have locks : isHidden lockDirectory = true := by decide
  rw [directories, List.filter_append, collections]
  split <;> simp [locks]

include vacant in
/-- The collections are listed in the order of their names. -/
theorem serves_collections (whole : ∀ name, name ∈ heads) :
    Serves store origin home heads layouts locked cabinet view .collections := by
  unfold Serves
  simp only [perform, Cabinet.perform, collections]
  refine .bind_same (.listEntries_root vacant whole _ (nodup_directories keeps)
    fun name => mem_directories keeps) ?_
  rw [Sorting.filter_sort Text.ranks_before _ fun first _ second _ notBefore notAfter =>
    Text.eq_of_not_before notBefore notAfter, filter_directories keeps]
  generalize sortedNames : Sorting.sort Text.before (cabinet.collections.map Prod.fst) = names
  have isCollection : ∀ name ∈ names, ∃ drawer, cabinet.drawer? name = some drawer := by
    intro name member
    rw [← sortedNames] at member
    have inside := (Sorting.sort_perm _ _).mem_iff.mp member
    exact Option.ne_none_iff_exists'.mp (fun absent => Lookup.lookup_eq_none_iff.mp absent inside)
  have flat : (names.map fun name => [name]).flatten = names := by
    rw [← List.flatMap_def, List.flatMap_singleton']
  refine .bind_same (.forEach (List.forall₂_map_right_iff.mpr (List.forall₂_same.mpr
    fun name member => ?_))) (by
      rw [flat]
      exact .pure _ keeps)
  obtain ⟨drawer, there⟩ := isCollection name member
  have named := keeps.named there
  obtain ⟨identity, isDirectory⟩ := keeps.part_directory there (.inl rfl)
  have path : (store.root.child name).child "docs" = store.root.trimmed ++ ([name] ++ ["docs"]) :=
    Path.child_concat _ named.plain.nonempty "docs"
  rw [path]
  refine .bind_same (.isDirectory_directory vacant (keeps.leads_collection there) (whole name)
    (fun other isName => named.plain_names (.inl rfl) (isPart.stored (.inl rfl)) other
      (List.mem_append_left _ isName)) (show 1 < 3 by decide) isDirectory) ?_
  exact .pure _ rfl

include vacant in
/-- **A storage in files does what is said of its cabinet**, whatever the database asks of it, and
whatever happens elsewhere meanwhile. -/
theorem serves (usual : store.layout ∈ layouts) (blank : ∀ layout ∈ layouts, layout.Blank)
    {op : Storage.Op .json} (fits : op.Fits) (within : op.Within heads) :
    Serves store origin home heads layouts locked cabinet view op := by
  cases op with
  | «exists» name => exact serves_exists vacant keeps within fits
  | create name => exact serves_create vacant keeps within fits
  | drop name => exact serves_drop vacant keeps within fits
  | collections => exact serves_collections vacant keeps within
  | put name id document => exact serves_put vacant keeps usual within fits
  | get name id => exact serves_get vacant keeps blank within fits
  | replace name id document => exact serves_replace vacant keeps usual within fits
  | scan name query => exact serves_scan vacant keeps blank within fits
  | deleteMatching name query limit => exact serves_deleteMatching vacant keeps blank within fits
  | deleteById name id => exact serves_deleteById vacant keeps within fits
  | addCheck name key check => exact serves_addCheck vacant keeps usual within fits
  | dropCheck name key => exact serves_dropCheck vacant keeps within fits
  | checks name => exact serves_checks vacant keeps blank within fits
  | close => exact .pure () keeps

end

end FileStore

end DocStore

/-!
## Strays below the root

What lies below a root under the name of a collection need not be a collection: it may be a file, or
a directory without one for documents.  That a collection exists is told by its directory for
documents (`exists?_view`), while a drop moves away and removes whatever lies under the name, and
tells that something was there (`drop_view`).  So a drop answers whether the collection existed
unless there is such a stray, which it takes with it (`drop_eq_exists?_iff`).
-/

namespace DocStore.FileStore

open Disk (Branch Entry Place Sees Shows Under Vacant)
open Files (Named)
open Host (Machine Secures anyMoves)

/-- Whether a collection lies under a name: a directory that has one for documents. -/
def hasCollection (view : Branch) (name : String) : Bool :=
  (view [name]).any Entry.isDirectory && (view [name, "docs"]).any Entry.isDirectory

section

variable {moves : Nat → Branch → Branch → Prop} {store : FileStore} {origin : Disk} {home : Place}
  {heads : Set String} {view : Branch} (vacant : Vacant origin store.root home) {name : String}
  (own : name ∈ heads) (named : Named name)
include vacant own named

/-! ### Whether a collection exists -/

/-- Below a file there is no directory for documents. -/
theorem exists?_file {identity : Nat} {content : String}
    (isFile : view [name] = some (.file identity content)) :
    Secures moves origin home heads view (store.exists? name) (.ok false) (Eq view) := by
  have plain := named.plain_documents
  rw [exists?, documentsPath, partPath_eq vacant.resolved named]
  have status (disk : Disk) (branch : Branch) (sees : Sees origin home heads view branch disk) :
      disk.status (store.root.trimmed ++ ([name] ++ ["docs"])) = .error .notDirectory := by
    have located := sees.shows.locate_through_file vacant (Branch.leads_nil branch) plain
      (show 2 ≤ 3 by decide) ((sees.same [name] own).trans isFile)
    exact congrArg (· >>= _) located
  refine .reads_bind (fun disk branch sees => congrArg disk.reading (status disk branch sees)) ?_
  exact .pure false rfl

/-- A directory is a collection when it has a directory for documents. -/
theorem exists?_directory {identity : Nat} (isDirectory : view [name] = some (.directory identity))
    (noLink : ∀ target, view [name, "docs"] ≠ some (.link target)) :
    Secures moves origin home heads view (store.exists? name)
      (.ok ((view [name, "docs"]).any Entry.isDirectory)) (Eq view) := by
  have plain := named.plain_documents
  have leads : view.Leads [name] := (Branch.leads_nil view).concat isDirectory
  rw [exists?, documentsPath, partPath_eq vacant.resolved named]
  cases found : view [name, "docs"] with
  | none =>
      exact .isDirectory_absent vacant ⟨[name], "docs", [], rfl, leads, found⟩ own plain
        (show 2 ≤ 3 by decide)
  | some entry =>
      cases entry with
      | link target => exact absurd found (noLink target)
      | directory identity' =>
          exact .isDirectory_directory vacant leads own plain (show 1 < 3 by decide) found
      | file identity' content =>
          have status (disk : Disk) (branch : Branch)
              (sees : Sees origin home heads view branch disk) :
              disk.status (store.root.trimmed ++ ([name] ++ ["docs"]))
                = .ok ⟨false, identity'⟩ := by
            have own' : Under heads ([name] ++ ["docs"]) := own
            have there := (sees.same _ own').trans found
            have located := sees.shows.locate vacant (sees.leads own' leads) plain
              (show 1 < 3 by decide) (by rw [there]; simp)
            rw [there] at located
            exact congrArg (· >>= _) located
          refine .reads_bind
            (fun disk branch sees => congrArg disk.reading (status disk branch sees)) ?_
          exact .pure false rfl

/-- A collection exists exactly when there is a directory for its documents, whatever else lies
below the root, as long as no links lie on the way. -/
theorem exists?_view (noLink : ∀ target, view [name] ≠ some (.link target))
    (noLink' : ∀ target, view [name, "docs"] ≠ some (.link target)) :
    Secures moves origin home heads view (store.exists? name) (.ok (hasCollection view name))
      (Eq view) := by
  cases found : view [name] with
  | none =>
      rw [hasCollection, found, exists?, documentsPath, partPath_eq vacant.resolved named]
      exact .isDirectory_absent vacant ⟨[], name, ["docs"], rfl, Branch.leads_nil view, found⟩ own
        named.plain_documents (show 2 ≤ 3 by decide)
  | some entry =>
      rw [hasCollection, found]
      cases entry with
      | link target => exact absurd found (noLink target)
      | directory identity => exact exists?_directory vacant own named found noLink'
      | file identity content => exact exists?_file vacant own named found

/-! ### Dropping -/

/-- A drop removes whatever lies under the name and tells whether something did. -/
theorem drop_view
    (unused : ∀ number rest, view ((".trash-" ++ Machine.freshName number) :: rest) = none) :
    Secures anyMoves origin home heads view (store.drop name) (.ok (view [name]).isSome)
      (Eq (if (view [name]).isSome then view.without [name] else view)) :=
  drops vacant own named unused (fun _ _ => trivial) fun _ _ _ => trivial

omit own in
/-- **A drop tells whether the collection existed** exactly when nothing lies under its name or the
collection does; whatever else lies there is removed all the same. -/
theorem drop_eq_exists?_iff {machine : Machine} (shows : Shows origin home view machine.disk)
    (noLink : ∀ target, view [name] ≠ some (.link target))
    (noLink' : ∀ target, view [name, "docs"] ≠ some (.link target))
    (unused : ∀ number rest, view ((".trash-" ++ Machine.freshName number) :: rest) = none) :
    (machine.attempt (store.drop name)).1 = (machine.attempt (store.exists? name)).1
      ↔ view [name] = none ∨ hasCollection view name = true := by
  have whole : name ∈ Set.univ := Set.mem_univ name
  have looks : Secures anyMoves origin home Set.univ view (store.exists? name) _ _ :=
    exists?_view vacant whole named noLink noLink'
  rw [(drop_view vacant whole named unused).attempt_eq shows, looks.attempt_eq shows,
    Except.ok.injEq]
  cases found : view [name] with
  | none => simp [hasCollection, found]
  | some entry =>
      exact ⟨fun same => .inr same.symm, fun known => (known.resolve_left nofun).symm⟩

end

end DocStore.FileStore
