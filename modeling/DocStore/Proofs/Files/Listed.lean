import DocStore.Proofs.Disk.Below
import DocStore.Proofs.Files.Atomic
import DocStore.Proofs.Files.Names
import DocStore.Proofs.Sorting
/-!
# Which names are listed

Whether a collection exists is decided by the path of its directory for documents, links on the way
followed.  The listing starts from the entries of the root instead: it leaves out what is no
directory itself, so that no link is listed, and what is hidden (`Listable`), and then asks of each
name that is left whether the collection exists.  It does not ask whether the name could be given to
a collection.

So the listing holds exactly the listable names under which a collection exists
(`collections_eq_ok_iff`); a name that a collection can have, and under which one exists, is missing
only when its entry is a link (`listed_of_toldExists`).  The theorems hold of every tree below the
root, however it has come about.
-/

set_option autoImplicit false

namespace DocStore

open Host (Action Machine)

/-! ## Asking about each element of a list -/

section

variable {ι α : Type} {told : ι → Except Failure α} {list : List ι}

/-- What is told of each element, up to the first of which nothing can be told. -/
def tellEach (told : ι → Except Failure α) : List ι → Except Failure (List α)
  | [] => .ok []
  | element :: rest => do
      let first ← told element
      let others ← tellEach told rest
      return first :: others

theorem tellEach_eq_ok_iff {values : List α} :
    tellEach told list = .ok values
      ↔ list.map told = values.map .ok := by
  induction list generalizing values with
  | nil => cases values <;> simp [tellEach]
  | cons element rest ih =>
      rw [tellEach]
      cases known : told element with
      | error failure => cases values <;> simp [known, bind, Except.bind]
      | ok value =>
          cases others : tellEach told rest with
          | error failure => cases values <;> simp [known, others, ← ih, bind, Except.bind]
          | ok values' =>
              cases values <;> simp [known, others, ← ih, bind, Except.bind, pure, Except.pure]

theorem tellEach_eq_error_iff {failure : Failure} :
    tellEach told list = .error failure
      ↔ ∃ before element after, list = before ++ element :: after
        ∧ (∀ other ∈ before, ∃ value, told other = .ok value) ∧ told element = .error failure := by
  induction list with
  | nil => simp [tellEach]
  | cons first rest ih =>
      rw [tellEach]
      constructor
      · intro fails
        cases known : told first with
        | error failure' =>
            rw [known] at fails
            obtain rfl : failure' = failure := Except.error.inj fails
            exact ⟨[], first, rest, rfl, by simp, known⟩
        | ok value =>
            rw [known] at fails
            have restFails : tellEach told rest = .error failure := by
              cases others : tellEach told rest with
              | error failure' =>
                  rw [others] at fails
                  exact congrArg _ (Except.error.inj fails)
              | ok values =>
                  rw [others] at fails
                  cases fails
            obtain ⟨before, element, after, rfl, succeed, isFailure⟩ := ih.mp restFails
            refine ⟨first :: before, element, after, rfl, fun other member => ?_, isFailure⟩
            rcases List.mem_cons.mp member with rfl | member
            · exact ⟨value, known⟩
            · exact succeed other member
      · rintro ⟨before, element, after, split, succeed, isFailure⟩
        cases before with
        | nil =>
            obtain ⟨rfl, -⟩ := List.cons.inj split
            rw [isFailure]
            rfl
        | cons head before =>
            obtain ⟨rfl, rfl⟩ := List.cons.inj split
            obtain ⟨value, known⟩ := succeed first List.mem_cons_self
            have restFails := ih.mpr ⟨before, element, after, rfl,
              fun other member => succeed other (List.mem_cons_of_mem _ member), isFailure⟩
            rw [known, restFails]
            rfl

/-- Where each action only tells something, so do all of them together. -/
theorem Host.Machine.eval_forEach {machine : Machine} {action : ι → Action α}
    (tells : ∀ element ∈ list, machine.eval (action element) = (told element, machine)) :
    machine.eval (Attempt.forEach list action) = (tellEach told list, machine) := by
  induction list with
  | nil => rfl
  | cons element rest ih =>
      have first := tells element List.mem_cons_self
      have others := ih fun other member => tells other (List.mem_cons_of_mem _ member)
      rw [Machine.eval, Attempt.eval_forEach_cons, tellEach]
      cases known : told element with
      | error failure =>
          rw [known] at first
          exact Attempt.eval_bind_error first
      | ok value =>
          rw [known] at first
          rw [Attempt.eval_bind_ok first]
          cases knownRest : tellEach told rest with
          | error failure =>
              rw [knownRest] at others
              exact Attempt.eval_bind_error others
          | ok values =>
              rw [knownRest] at others
              exact Attempt.eval_bind_ok others

end

/-- No text comes before itself. -/
theorem Text.before_irreflexive (name : String) : before name name = false := by
  cases isBefore : before name name with
  | false => rfl
  | true => exact isBefore.symm.trans (ranks_before.asymm isBefore)

/-- In a strictly sorted list those come before an element that come before it in the list. -/
theorem Text.mem_front_iff {front back : List String} {name other : String}
    (increasing : (front ++ name :: back).Pairwise fun first second => before first second = true) :
    other ∈ front ↔ other ∈ front ++ name :: back ∧ before other name = true := by
  obtain ⟨-, increasingBack, between⟩ := List.pairwise_append.mp increasing
  constructor
  · intro member
    exact ⟨List.mem_append_left _ member, between other member name List.mem_cons_self⟩
  · rintro ⟨member, isBefore⟩
    rcases List.mem_append.mp member with inFront | inBack
    · exact inFront
    · rcases List.mem_cons.mp inBack with rfl | inBack
      · rw [before_irreflexive] at isBefore
        cases isBefore
      · rw [ranks_before.asymm ((List.pairwise_cons.mp increasingBack).1 other inBack)] at isBefore
        cases isBefore

/-- A sorted list of texts without repetition is strictly sorted. -/
theorem Text.increasing_of_sorted {names : List String} (sorted : Sorting.Sorted before names)
    (distinct : names.Nodup) : names.Pairwise fun first second => before first second = true := by
  refine (sorted.and distinct).imp fun {first second} ⟨notAfter, differ⟩ => ?_
  cases isBefore : before first second with
  | true => rfl
  | false => exact absurd (eq_of_not_before isBefore notAfter) differ

/-- A strictly sorted list of texts is known by its members. -/
theorem Text.eq_of_increasing {names names' : List String}
    (increasing : names.Pairwise fun first second => before first second = true)
    (increasing' : names'.Pairwise fun first second => before first second = true)
    (same : ∀ name, name ∈ names ↔ name ∈ names') : names = names' := by
  have distinct {list : List String}
      (increasing : list.Pairwise fun first second => before first second = true) : list.Nodup :=
    increasing.imp fun {first second} isBefore => by
      rintro rfl
      rw [before_irreflexive] at isBefore
      cases isBefore
  refine ((List.perm_ext_iff_of_nodup (distinct increasing) (distinct increasing')).mpr
    same).eq_of_pairwise (fun first second _ _ isBefore isAfter => ?_) increasing increasing'
  rw [ranks_before.asymm isBefore] at isAfter
  cases isAfter

namespace FileStore

open Disk (EntryKind Path Place Plain)
open Files (isHidden)

/-- A name that the listing considers: the root has a directory of that name, which is no link to
one, and the name is not hidden. -/
def Listable (disk : Disk) (root : Path) (name : String) : Prop :=
  (∃ listed, disk.list root = .ok listed ∧ (name, .directory) ∈ listed) ∧ isHidden name = false

/-- Whether a collection exists, as a machine tells it. -/
def toldExists (machine : Machine) (store : FileStore) (name : String) : Except Failure Bool :=
  (machine.attempt (store.exists? name)).1

/-- The listing, as a machine tells it. -/
def toldCollections (machine : Machine) (store : FileStore) : Except Failure (List String) :=
  (machine.attempt store.collections).1

section

variable {machine : Machine} {store : FileStore} (sound : Disk.Sound machine.disk)
  (resolved : Path.Resolved store.root)

/-- The names of a root are names that paths can be made of. -/
def PlainNames (disk : Disk) (root : Path) : Prop :=
  ∀ listed, disk.list root = .ok listed → ∀ found ∈ listed, Plain found.1

variable (plain : PlainNames machine.disk store.root)

/-! ## The names that are considered -/

/-- The names that the listing considers, in order. -/
def candidates (listed : List (String × EntryKind)) : List String :=
  (Sorting.sort Text.before
    ((listed.filter fun entry => entry.2 == .directory).map Prod.fst)).filter
      fun name => !isHidden name

theorem mem_candidates {listed : List (String × EntryKind)} {name : String} :
    name ∈ candidates listed ↔ (name, .directory) ∈ listed ∧ isHidden name = false := by
  simp only [candidates, List.mem_filter, (Sorting.sort_perm _ _).mem_iff, List.mem_map,
    Bool.not_eq_true', beq_iff_eq]
  refine and_congr_left fun _ => ⟨?_, fun member => ⟨(name, .directory), ⟨member, rfl⟩, rfl⟩⟩
  rintro ⟨⟨name', kind⟩, ⟨member, rfl⟩, rfl⟩
  exact member

theorem listable_iff {listed : List (String × EntryKind)}
    (lists : machine.disk.list store.root = .ok listed) {name : String} :
    Listable machine.disk store.root name ↔ name ∈ candidates listed := by
  rw [mem_candidates, Listable, lists]
  exact and_congr_left fun _ =>
    ⟨fun ⟨_, same, member⟩ => Except.ok.inj same ▸ member, fun member => ⟨_, rfl, member⟩⟩

include sound in
/-- They are in order, and none comes twice. -/
theorem increasing_candidates {listed : List (String × EntryKind)}
    (lists : machine.disk.list store.root = .ok listed) :
    (candidates listed).Pairwise fun first second => Text.before first second = true := by
  have distinct : (listed.map Prod.fst).Nodup := by
    unfold Disk.list at lists
    cases located : machine.disk.locate store.root with
    | error errno =>
        rw [located] at lists
        cases lists
    | ok target =>
        obtain ⟨place, _ | entry, slash⟩ := target
        · rw [located] at lists
          cases lists
        · rw [located] at lists
          cases entry with
          | file _ _ | link _ => cases lists
          | directory identity =>
              obtain rfl := Except.ok.inj lists
              rw [Lookup.map_fst_map]
              exact Disk.nodup_listing sound place
  have distinct' := distinct.sublist
    ((List.filter_sublist (p := fun entry => entry.2 == EntryKind.directory)).map Prod.fst)
  exact Text.increasing_of_sorted ((Sorting.sorted_sort Text.ranks_before _).filter _)
    (((Sorting.sort_perm Text.before _).nodup_iff.mpr distinct').filter _)

/-! ## What is told of each -/

/-- Asking whether a path leads to a directory changes nothing. -/
theorem eval_isDirectory (path : Path) :
    machine.eval (Files.isDirectory path)
      = ((machine.eval (Files.isDirectory path)).1, machine) := by
  have ends : ∃ result, machine.eval (Files.isDirectory path) = (result, machine) := by
    have step : machine.eval (Host.tryCall (.status path))
        = (.ok (machine.disk.status path), machine) := rfl
    rw [Files.isDirectory, Machine.eval, Attempt.eval_bind_ok step]
    cases machine.disk.status path with
    | ok found => exact ⟨_, rfl⟩
    | error errno =>
        dsimp only
        split <;> exact ⟨_, rfl⟩
  obtain ⟨result, told⟩ := ends
  rw [told]

/-- What the listing holds for one name. -/
def listedFor (machine : Machine) (store : FileStore) (name : String) :
    Except Failure (List String) :=
  (toldExists machine store name).map fun kept => if kept then [name] else []

include resolved plain in
/-- The listing asks of each name that it considers whether the collection exists. -/
theorem toldCollections_eq {listed : List (String × EntryKind)}
    (lists : machine.disk.list store.root = .ok listed) :
    toldCollections machine store
      = (tellEach (listedFor machine store) (candidates listed)).map List.flatten := by
  have each : ∀ name ∈ candidates listed,
      machine.eval (do
        let kept ← Files.isDirectory ((store.root.child name).child "docs")
        return if kept then [name] else [])
        = (listedFor machine store name, machine) := by
    intro name member
    have isPlain := plain listed lists _ (mem_candidates.mp member).1
    have same : store.documentsPath name = (store.root.child name).child "docs" := by
      rw [documentsPath, collectionPath, Path.append_eq resolved isPlain]
      rfl
    have told : machine.eval (Files.isDirectory ((store.root.child name).child "docs"))
        = (toldExists machine store name, machine) := by
      rw [← same]
      exact eval_isDirectory _
    rw [listedFor]
    cases known : toldExists machine store name with
    | ok kept =>
        rw [known] at told
        exact Attempt.eval_bind_ok told
    | error failure =>
        rw [known] at told
        exact Attempt.eval_bind_error told
  have all := Machine.eval_forEach each
  have names := Files.eval_listEntries lists .directory
  have found : machine.eval store.collections
      = machine.eval (Attempt.forEach (candidates listed) (fun name => do
          let kept ← Files.isDirectory ((store.root.child name).child "docs")
          return if kept then [name] else []) >>= fun found => pure found.flatten) :=
    Attempt.eval_bind_ok names
  refine (congrArg Prod.fst found).trans ?_
  cases known : tellEach (listedFor machine store) (candidates listed) with
  | ok values =>
      rw [known] at all
      exact congrArg Prod.fst (Attempt.eval_bind_ok all)
  | error failure =>
      rw [known] at all
      exact congrArg Prod.fst (Attempt.eval_bind_error all)

theorem listedFor_of_known {name : String} {kept : Bool}
    (known : toldExists machine store name = .ok kept) :
    listedFor machine store name = .ok (if kept then [name] else []) := by
  rw [listedFor, known]
  rfl

theorem known_of_listedFor {name : String} {value : List String}
    (told : listedFor machine store name = .ok value) :
    ∃ kept, toldExists machine store name = .ok kept := by
  rw [listedFor] at told
  cases known : toldExists machine store name with
  | ok kept => exact ⟨kept, rfl⟩
  | error failure =>
      rw [known] at told
      cases told

theorem listedFor_eq_error_iff {name : String} {failure : Failure} :
    listedFor machine store name = .error failure
      ↔ toldExists machine store name = .error failure := by
  rw [listedFor]
  cases toldExists machine store name <;> simp [Except.map]

/-- What can be told of all names that are considered is listed. -/
theorem tellEach_listedFor {names : List String}
    (known : ∀ name ∈ names, ∃ kept, toldExists machine store name = .ok kept) :
    (tellEach (listedFor machine store) names).map List.flatten
      = .ok (names.filter fun name => toldExists machine store name == .ok true) := by
  have each : tellEach (listedFor machine store) names
      = .ok (names.map fun name => if toldExists machine store name == .ok true then [name] else [])
      := by
    rw [tellEach_eq_ok_iff, List.map_map]
    refine List.map_congr_left fun name member => ?_
    obtain ⟨kept, isKnown⟩ := known name member
    rw [listedFor_of_known isKnown, Function.comp, isKnown]
    cases kept <;> rfl
  have flat (names : List String) (keep : String → Bool) :
      (names.map fun name => if keep name then [name] else []).flatten = names.filter keep := by
    induction names with
    | nil => rfl
    | cons name rest ih =>
        rw [List.map_cons, List.flatten_cons, List.filter_cons, ih]
        cases keep name <;> rfl
  rw [each, ← flat]
  rfl

/-- What is listed can be told of all names that are considered. -/
theorem known_of_tellEach {names names' : List String}
    (told : (tellEach (listedFor machine store) names).map List.flatten = .ok names') :
    ∀ name ∈ names, ∃ kept, toldExists machine store name = .ok kept := by
  intro name member
  cases each : tellEach (listedFor machine store) names with
  | error failure =>
      rw [each] at told
      cases told
  | ok values =>
      have same := List.mem_map_of_mem (f := listedFor machine store) member
      rw [tellEach_eq_ok_iff.mp each, List.mem_map] at same
      obtain ⟨value, -, known⟩ := same
      exact known_of_listedFor known.symm

/-! ## What is listed -/

/-- Without a root nothing is listed, and a root that cannot be read makes the listing fail. -/
theorem toldCollections_of_error {errno : Disk.Errno}
    (fails : machine.disk.list store.root = .error errno) :
    toldCollections machine store
      = if errno = .noEntry then .ok [] else .error (.ofCall (.list store.root.text) errno) := by
  have step : machine.eval (Host.tryCall (.list store.root)) = (.ok (.error errno), machine) := by
    rw [← fails]
    rfl
  have lists : machine.eval (Files.listDirectories store.root)
      = ((if errno = .noEntry then .ok [] else .error (.ofCall (.list store.root.text) errno)),
        machine) := by
    rw [Files.listDirectories, Files.listEntries, Machine.eval, Attempt.eval_bind_ok step]
    dsimp only
    split <;> rfl
  split at lists
  next missing =>
    rw [if_pos missing]
    exact congrArg Prod.fst (Attempt.eval_bind_ok lists)
  next other =>
    rw [if_neg other]
    exact congrArg Prod.fst (Attempt.eval_bind_error lists)

/-- Where the root cannot be listed no name is considered. -/
theorem not_listable_of_error {errno : Disk.Errno}
    (fails : machine.disk.list store.root = .error errno) (name : String) :
    ¬ Listable machine.disk store.root name := by
  rintro ⟨⟨listed, lists, -⟩, -⟩
  rw [fails] at lists
  cases lists

include sound resolved plain

/-- The listing succeeds when the root is missing or can be read and it can be found out of every
name that is considered whether the collection exists; then it holds the names under which one does,
in order. -/
theorem collections_eq_ok_iff {names : List String} :
    toldCollections machine store = .ok names
      ↔ (machine.disk.list store.root = .error .noEntry
          ∨ ∃ listed, machine.disk.list store.root = .ok listed)
        ∧ (∀ name, Listable machine.disk store.root name →
            ∃ kept, toldExists machine store name = .ok kept)
        ∧ (names.Pairwise fun first second => Text.before first second = true)
        ∧ ∀ name, name ∈ names
            ↔ Listable machine.disk store.root name ∧ toldExists machine store name = .ok true := by
  cases lists : machine.disk.list store.root with
  | error errno =>
      have nothing := not_listable_of_error lists
      rw [toldCollections_of_error lists]
      by_cases missing : errno = .noEntry
      · rw [if_pos missing, missing]
        simp only [nothing, false_and, iff_false, true_or, true_and, false_imp_iff, implies_true,
          Except.ok.injEq, ← List.eq_nil_iff_forall_not_mem]
        exact ⟨fun none => none ▸ ⟨.nil, rfl⟩, fun empty => empty.2.symm⟩
      · rw [if_neg missing]
        simp [missing]
  | ok listed =>
      have isListable (name : String) := @listable_iff machine store listed lists name
      have increasing := increasing_candidates sound lists
      rw [toldCollections_eq resolved plain lists]
      simp only [isListable, Except.ok.injEq, exists_eq', or_true, true_and]
      constructor
      · intro told
        have known := known_of_tellEach told
        rw [tellEach_listedFor known] at told
        obtain rfl := Except.ok.inj told
        exact ⟨known, increasing.filter _, fun name => by simp⟩
      · rintro ⟨known, sorted, members⟩
        rw [tellEach_listedFor known]
        refine congrArg _ (Text.eq_of_increasing (increasing.filter _) sorted fun name => ?_)
        rw [members, List.mem_filter, beq_iff_eq]

/-- Otherwise it fails because the root cannot be read, or with what is told of the first name that
is considered of which it cannot be found out. -/
theorem collections_eq_error_iff {failure : Failure} :
    toldCollections machine store = .error failure
      ↔ (∃ errno, errno ≠ .noEntry ∧ machine.disk.list store.root = .error errno
          ∧ failure = .ofCall (.list store.root.text) errno)
        ∨ ∃ name, Listable machine.disk store.root name
            ∧ toldExists machine store name = .error failure
            ∧ ∀ other, Listable machine.disk store.root other → Text.before other name = true →
              ∃ kept, toldExists machine store other = .ok kept := by
  cases lists : machine.disk.list store.root with
  | error errno =>
      have nothing := not_listable_of_error lists
      rw [toldCollections_of_error lists]
      simp only [nothing, false_and, exists_false, or_false]
      by_cases missing : errno = .noEntry
      · rw [if_pos missing]
        refine ⟨nofun, ?_⟩
        rintro ⟨errno', other, same, -⟩
        exact absurd ((Except.error.inj same).symm.trans missing) other
      · rw [if_neg missing]
        refine ⟨fun same => ⟨errno, missing, rfl, (Except.error.inj same).symm⟩, ?_⟩
        rintro ⟨errno', -, same, rfl⟩
        rw [Except.error.inj same]
  | ok listed =>
      have isListable (name : String) := @listable_iff machine store listed lists name
      have increasing := increasing_candidates sound lists
      rw [toldCollections_eq resolved plain lists]
      simp only [isListable, reduceCtorEq, false_and, and_false, exists_false, false_or]
      have fails : (tellEach (listedFor machine store) (candidates listed)).map List.flatten
            = .error failure
          ↔ tellEach (listedFor machine store) (candidates listed) = .error failure := by
        cases tellEach (listedFor machine store) (candidates listed) <;> simp [Except.map]
      rw [fails, tellEach_eq_error_iff]
      constructor
      · rintro ⟨front, name, back, split, known, isFailure⟩
        rw [split] at increasing ⊢
        refine ⟨name, List.mem_append_right _ List.mem_cons_self, listedFor_eq_error_iff.mp isFailure,
          fun other member isBefore => ?_⟩
        obtain ⟨_, told⟩ := known other ((Text.mem_front_iff increasing).mpr ⟨member, isBefore⟩)
        exact known_of_listedFor told
      · rintro ⟨name, member, isFailure, known⟩
        obtain ⟨front, back, split⟩ := List.append_of_mem member
        rw [split] at increasing known
        refine ⟨front, name, back, split, fun other inFront => ?_,
          listedFor_eq_error_iff.mpr isFailure⟩
        obtain ⟨inList, isBefore⟩ := (Text.mem_front_iff increasing).mp inFront
        obtain ⟨kept, told⟩ := known other inList isBefore
        exact ⟨_, listedFor_of_known told⟩

end

/-! ## Names that are not listed -/

/-- A disk in order with a root below which every name can be part of a path. -/
structure Ordinary (machine : Machine) (store : FileStore) : Prop where
  resolved : Path.Resolved store.root
  sound : Disk.Sound machine.disk
  rooted : Disk.Rooted machine.disk
  plain : PlainNames machine.disk store.root

variable {machine : Machine} {store : FileStore}

/-- A collection that exists has a directory for documents, at the end of its path. -/
theorem walk_of_toldExists (resolved : Path.Resolved store.root) {name : String} (plain : Plain name)
    (exist : toldExists machine store name = .ok true) :
    Disk.checkPath (store.root.trimmed ++ [name, "docs"]) = .ok ()
      ∧ ∃ place identity, Disk.walk machine.disk Disk.maxLinks []
          (store.root.trimmed ++ [name, "docs"]) = .ok ⟨place, some (.directory identity), false⟩ := by
  have path : store.documentsPath name = store.root.trimmed ++ [name, "docs"] := by
    rw [documentsPath, collectionPath, Path.append_eq resolved plain,
      Path.child_concat _ plain.nonempty]
  have step : machine.eval (Host.tryCall (.status (store.documentsPath name)))
      = (.ok (machine.disk.status (store.documentsPath name)), machine) := rfl
  have told : (machine.eval (store.exists? name)).1 = .ok true := exist
  rw [exists?, Files.isDirectory, Machine.eval, Attempt.eval_bind_ok step, path] at told
  unfold Disk.status at told
  cases located : machine.disk.locate (store.root.trimmed ++ [name, "docs"]) with
  | error errno =>
      rw [located] at told
      simp only [bind, Except.bind] at told
      split at told <;> cases told
  | ok target =>
      obtain ⟨place, entry, slash⟩ := target
      obtain ⟨isPath, arrives⟩ := Disk.locate_eq_ok_iff.mp located
      rw [located] at told
      cases entry with
      | none => cases told
      | some entry =>
          cases entry with
          | link target => cases told
          | file identity content => cases slash <;> cases told
          | directory identity =>
              obtain rfl : slash = false := Disk.slash_walk Disk.maxLinks arrives rfl
              exact ⟨isPath, place, identity, arrives⟩

/-- A collection that exists has an entry in the root, which is a directory or a link. -/
theorem listed_of_toldExists (ordinary : Ordinary machine store) {name : String}
    (plain : Plain name) (exist : toldExists machine store name = .ok true) :
    ∃ listed, machine.disk.list store.root = .ok listed
      ∧ ((name, .directory) ∈ listed ∨ (name, .link) ∈ listed) := by
  obtain ⟨isPath, place, identity, arrives⟩ := walk_of_toldExists ordinary.resolved plain exist
  have split : store.root.trimmed ++ [name, "docs"] = store.root.trimmed ++ [name] ++ ["docs"] := by
    rw [List.append_assoc]
    rfl
  have top : ∃ identity, machine.disk.entry? [] = some (.directory identity) := ⟨0, rfl⟩
  -- the path leads through the directory of the collection, and to that through the root
  rw [split] at arrives
  obtain ⟨_, _, arrivesName, -⟩ := Disk.walk_dropLast ordinary.rooted (by decide) (by decide)
    (by decide) Disk.maxLinks _ [] top arrives
  obtain ⟨home, identity', arrivesRoot, short, entry, found⟩ := Disk.walk_dropLast ordinary.rooted
    plain.nonempty plain.notHere plain.notAbove Disk.maxLinks _ [] top arrivesName
  have noFile : entry.isFile = false := by
    obtain ⟨links, goesOn⟩ := Disk.walk_append (Disk.Extends.refl machine.disk) Disk.maxLinks _ []
      arrivesRoot
    have notBlank : ¬ (name = "" ∨ name = ".") := not_or.mpr ⟨plain.nonempty, plain.notHere⟩
    rw [goesOn [name], Disk.walk_eq, Disk.walkWith_name notBlank plain.notAbove short, found]
      at arrivesName
    cases entry with
    | directory _ | link _ => rfl
    | file _ _ => cases arrivesName
  have located : machine.disk.locate store.root = .ok ⟨home, some (.directory identity'), false⟩ := by
    rcases Path.eq_top_or_trimmed_eq ordinary.resolved with isTop | same
    · rw [isTop] at arrivesRoot ⊢
      refine Disk.locate_eq_ok_iff.mpr ⟨rfl, ?_⟩
      rw [Path.top, Disk.walk_eq, Disk.walkWith_blank (.inl rfl), ← Disk.walk_eq]
      exact arrivesRoot
    · rw [same] at arrivesRoot isPath
      exact Disk.locate_eq_ok_iff.mpr
        ⟨Path.checkPath_of_append ordinary.resolved.nonempty isPath, arrivesRoot⟩
  refine ⟨_, by unfold Disk.list; rw [located]; rfl, ?_⟩
  have isListed : (name, entry) ∈ machine.disk.listing home :=
    (Disk.mem_listing ordinary.sound).mpr found
  cases entry with
  | file _ _ => cases noFile
  | directory _ => exact .inl (List.mem_map_of_mem (f := fun found => (found.1, found.2.kind)) isListed)
  | link _ => exact .inr (List.mem_map_of_mem (f := fun found => (found.1, found.2.kind)) isListed)

/-- **The listing** holds, in order and each once, the names of the directories of the root, links
left out, that are not hidden and under which a collection exists; whether a name could be given to
a collection makes no difference, and among the names that could only links are missing.  The
listing is given exactly when the root is missing or can be read and it can be found out of each of
those directories whether it is a collection; else the first failure is told. -/
theorem lists_own_directories (ordinary : Ordinary machine store) :
    (∀ names, toldCollections machine store = .ok names →
      (names.Pairwise fun first second => Text.before first second = true)
        ∧ (∀ name, name ∈ names
          ↔ Listable machine.disk store.root name ∧ toldExists machine store name = .ok true)
        ∧ ∀ name, Collection.nameFault? name = none → toldExists machine store name = .ok true →
          name ∈ names ∨ ∃ listed, machine.disk.list store.root = .ok listed
            ∧ (name, .link) ∈ listed)
      ∧ ((∃ names, toldCollections machine store = .ok names)
        ↔ (machine.disk.list store.root = .error .noEntry
            ∨ ∃ listed, machine.disk.list store.root = .ok listed)
          ∧ ∀ name, Listable machine.disk store.root name →
            ∃ kept, toldExists machine store name = .ok kept)
      ∧ ∀ failure, toldCollections machine store = .error failure
        ↔ (∃ errno, errno ≠ .noEntry ∧ machine.disk.list store.root = .error errno
            ∧ failure = .ofCall (.list store.root.text) errno)
          ∨ ∃ name, Listable machine.disk store.root name
              ∧ toldExists machine store name = .error failure
              ∧ ∀ other, Listable machine.disk store.root other → Text.before other name = true →
                ∃ kept, toldExists machine store other = .ok kept := by
  have succeeds (names : List String) : toldCollections machine store = .ok names ↔ _ :=
    collections_eq_ok_iff ordinary.sound ordinary.resolved ordinary.plain
  have fails (failure : Failure) : toldCollections machine store = .error failure ↔ _ :=
    collections_eq_error_iff ordinary.sound ordinary.resolved ordinary.plain
  refine ⟨?_, ?_, fails⟩
  · intro names told
    obtain ⟨_, _, increasing, members⟩ := (succeeds names).mp told
    refine ⟨increasing, members, fun name accepted exist => ?_⟩
    have named := Files.named_of_nameFault? accepted
    obtain ⟨listed, lists, isDirectory | isLink⟩ := listed_of_toldExists ordinary named.plain exist
    · exact .inl ((members name).mpr ⟨⟨⟨listed, lists, isDirectory⟩, named.seen⟩, exist⟩)
    · exact .inr ⟨listed, lists, isLink⟩
  · constructor
    · rintro ⟨names, told⟩
      obtain ⟨reads, known, -⟩ := (succeeds names).mp told
      exact ⟨reads, known⟩
    · rintro ⟨reads, known⟩
      cases told : toldCollections machine store with
      | ok names => exact ⟨names, rfl⟩
      | error failure =>
          rcases (fails failure).mp told with ⟨errno, other, refused, -⟩ | ⟨name, considered, refused, -⟩
          · rw [refused] at reads
            rcases reads with missing | ⟨listed, lists⟩
            · exact absurd (Except.error.inj missing) other
            · cases lists
          · obtain ⟨kept, isKnown⟩ := known name considered
            rw [refused] at isKnown
            cases isKnown

/-! ## A tree with a link -/

/-- A store in a directory of a disk. -/
def linkedStore : FileStore :=
  .ofOptions ["data"] .absent .absent .absent ⟨.error, false⟩

/-- A root with two collections, one of them under a name that cannot be given, a link to the other
one, and a file. -/
def linkedMachine : Machine :=
  { Machine.start with
    disk := ⟨[(["data"], .directory 1), (["data", "users"], .directory 2),
      (["data", "users", "docs"], .directory 3), (["data", "old users"], .directory 4),
      (["data", "old users", "docs"], .directory 5), (["data", "people"], .link "users"),
      (["data", "notes.txt"], .file 6 "users and people")], 7⟩ }

theorem ordinary_linkedMachine : Ordinary linkedMachine linkedStore where
  resolved := .inr ⟨by decide, by decide⟩
  sound := ⟨by decide, by decide, by decide⟩
  rooted place entry found := by
    cases place with
    | nil => exact ⟨0, rfl⟩
    | cons name rest =>
        have listed := Lookup.mem_of_lookup found
        simp only [linkedMachine, List.mem_cons, Prod.mk.injEq, List.not_mem_nil, or_false] at listed
        rcases listed with ⟨same, _⟩ | ⟨same, _⟩ | ⟨same, _⟩ | ⟨same, _⟩ | ⟨same, _⟩ | ⟨same, _⟩
          | ⟨same, _⟩ <;> rw [same] <;> exact ⟨_, rfl⟩
  plain listed lists := by
    have known : linkedMachine.disk.list linkedStore.root
        = .ok [("users", .directory), ("old users", .directory), ("people", .link),
          ("notes.txt", .file)] := by decide
    rw [known] at lists
    obtain rfl := Except.ok.inj lists
    decide

/-- The link is missing and the other two are listed. -/
theorem lists_own_directories_linked :
    Ordinary linkedMachine linkedStore
      ∧ toldCollections linkedMachine linkedStore = .ok ["old users", "users"]
      ∧ (∀ name, name ∈ ["old users", "users"]
        ↔ Listable linkedMachine.disk linkedStore.root name
          ∧ toldExists linkedMachine linkedStore name = .ok true) := by
  have told : toldCollections linkedMachine linkedStore = .ok ["old users", "users"] := by
    decide +kernel
  obtain ⟨all, _, _⟩ := lists_own_directories ordinary_linkedMachine
  exact ⟨ordinary_linkedMachine, told, (all _ told).2.1⟩

/-- The listing does not hold all names that are accepted and under which a collection exists: one
that is a link is missing. -/
theorem accepted_names_differ :
    ¬ ∀ (machine : Machine) (store : FileStore) (names : List String), Ordinary machine store →
      toldCollections machine store = .ok names → ∀ name, name ∈ names
        ↔ Collection.nameFault? name = none ∧ toldExists machine store name = .ok true := by
  intro always
  have told : toldCollections linkedMachine linkedStore = .ok ["old users", "users"] := by
    decide +kernel
  have exist : toldExists linkedMachine linkedStore "people" = .ok true := by decide +kernel
  have listed := (always _ _ _ ordinary_linkedMachine told "people").mpr ⟨by decide, exist⟩
  exact absurd listed (by decide)

end FileStore

end DocStore
