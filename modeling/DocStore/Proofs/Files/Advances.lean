import DocStore.Proofs.Disk.Views
import DocStore.Proofs.Storage.Cabinet
/-!
# Collections while they are changed

Whoever reads a collection without its lock sees it at any moment at which others are changing it.
At every such moment the collection is whole (`Whole`): it has its directories or none, and each
file of it that is not hidden can be read as a document.  The directory for its documents has an
identity.  A collection that has been moved away is in use no more, and neither is the identity of
its directory, under whatever name (`Discarded`).

`Advances` says what one step may do to all that: it keeps collections whole and the identities of
their directories apart, it takes none of them into use again, and a collection that goes takes its
identity with it.  The steps of those who write are of this kind: `Advances.of_files` for changes of
files, `Advances.makes`, `Advances.appears`, `Advances.vanishes` and `Advances.sweeps` for what
happens to whole collections.  `Advances.lift` says that what is such a step for its owner is one
for all.
-/

set_option autoImplicit false

namespace DocStore

open Disk (Branch Entry Place Sees Under)
open Files (Named isHidden keyName)
open Host (Machine)

/-! ## What can be seen of a collection -/

/-- A file of a name that can be read as a document. -/
def Readable (layouts : Set Json.Layout) (file : String) (entry : Entry) : Prop :=
  ∃ identity, ∃ layout ∈ layouts, ∃ document id,
    entry = .file identity (Json.canonicalText layout .document document)
      ∧ document.WellFormed ∧ FileStore.documentId? document = some id ∧ file = keyName id

/-- What can be seen of a collection is whole. -/
structure Whole (layouts : Set Json.Layout) (branch : Branch) (name : String) : Prop where
  standing : branch [name] = none ∧ branch [name, "docs"] = none ∨ ∃ identity identity',
    branch [name] = some (.directory identity) ∧ branch [name, "docs"] = some (.directory identity')
  readable : ∀ file entry, isHidden file = false → branch [name, "docs", file] = some entry →
    Readable layouts file entry

/-- The identity of the directory for documents under a first name. -/
def shelf? (branch : Branch) (head : String) : Option Nat :=
  match branch [head, "docs"] with
  | some (.directory identity) => some identity
  | _ => none

/-- A first name under which there is a collection, or may come to be one: not the one of the locks,
and none to which collections are moved away. -/
structure InUse (head : String) : Prop where
  noLock : head ≠ lockDirectory
  noTrash : ∀ number, head ≠ ".trash-" ++ Machine.freshName number

/-- An identity is that of no directory for documents that is in use. -/
def Discarded (branch : Branch) (identity : Nat) : Prop :=
  ∀ head, InUse head → shelf? branch head ≠ some identity

/-- Directories for documents that are in use are told apart by their identities. -/
def ToldApart (branch : Branch) : Prop :=
  ∀ head other identity, InUse head → InUse other → shelf? branch head = some identity →
    shelf? branch other = some identity → head = other

/-- What one step of those who write may do, once so many identities have been given. -/
structure Advances (layouts : Set Json.Layout) (given : Nat) (first second : Branch) : Prop where
  whole : ∀ name, Named name → Whole layouts first name → Whole layouts second name
  apart : ToldApart first → ToldApart second
  lasts : ToldApart first → ∀ name identity, Named name → shelf? first name = some identity →
    shelf? second name = some identity ∨ second [name] = none ∧ Discarded second identity
  discarded : ∀ identity < given, Discarded first identity → Discarded second identity

theorem Files.Named.inUse {name : String} (named : Named name) : InUse name where
  noLock := by
    rintro rfl
    exact absurd named.seen (by decide)
  noTrash number := by
    rintro rfl
    have seen := named.seen
    rw [Files.mark_trash.isHidden number] at seen
    cases seen

/-- A collection is prepared where it may come to be. -/
theorem inUse_staging (number : Nat) : InUse (".staging-" ++ Machine.freshName number) where
  noLock := Files.marked_ne number (by decide)
  noTrash := Files.staging_ne_trash number

theorem shelf?_eq_some_iff {branch : Branch} {head : String} {identity : Nat} :
    shelf? branch head = some identity ↔ branch [head, "docs"] = some (.directory identity) := by
  unfold shelf?
  split
  next found => simp [found]
  next noDirectory =>
    constructor
    · rintro ⟨⟩
    · intro found
      exact absurd found (noDirectory identity)

theorem shelf?_congr {branch branch' : Branch} {head head' : String}
    (same : branch [head, "docs"] = branch' [head', "docs"]) :
    shelf? branch head = shelf? branch' head' := by
  rw [shelf?, same, shelf?]

theorem Whole.congr {layouts : Set Json.Layout} {branch branch' : Branch} {name : String}
    (whole : Whole layouts branch name)
    (same : ∀ rest, branch' (name :: rest) = branch (name :: rest)) :
    Whole layouts branch' name where
  standing := by
    rw [same, same]
    exact whole.standing
  readable file entry seen found := whole.readable file entry seen (same ["docs", file] ▸ found)

namespace Advances

variable {layouts : Set Json.Layout} {given : Nat} {first second : Branch}

/-! ## Steps -/

/-- A step that leaves the directories for documents where they are. -/
theorem of_shelves
    (whole : ∀ name, Named name → Whole layouts first name → Whole layouts second name)
    (same : ∀ head, InUse head → shelf? second head = shelf? first head) :
    Advances layouts given first second where
  whole := whole
  apart apart head other identity isHead isOther found found' :=
    apart head other identity isHead isOther (same head isHead ▸ found)
      (same other isOther ▸ found')
  lasts _ name _ named found := .inl ((same name named.inUse).trans found)
  discarded _ _ discarded head isHead := same head isHead ▸ discarded head isHead

theorem refl (branch : Branch) : Advances layouts given branch branch :=
  .of_shelves (fun _ _ whole => whole) fun _ _ => rfl

/-- Nothing changes but what there is about locks. -/
theorem of_unmoved (unmoved : ∀ names, ¬ Under {lockDirectory} names → second names = first names) :
    Advances layouts given first second :=
  .of_shelves (fun _ named whole => whole.congr fun _ => unmoved _ named.inUse.noLock)
    fun head isHead => shelf?_congr (unmoved [head, "docs"] isHead.noLock)

/-- Nothing changes but files, and of those that are not hidden each is as it was, is gone or can be
read. -/
theorem of_files (same : ∀ names, names.length < 3 → second names = first names)
    (readable : ∀ name file entry, isHidden file = false →
      second [name, "docs", file] = some entry →
      first [name, "docs", file] = some entry ∨ Readable layouts file entry) :
    Advances layouts given first second := by
  refine .of_shelves (fun name _ whole => ⟨?_, fun file entry seen found => ?_⟩)
    fun head _ => shelf?_congr (same [head, "docs"] (by simp))
  · rw [same [name] (by simp), same [name, "docs"] (by simp)]
    exact whole.standing
  · exact (readable name file entry seen found).elim (whole.readable file entry seen) id

/-- One file changes. -/
theorem of_update {names : List String} (deep : names.length = 3) {found : Option Entry}
    (readable : ∀ name file entry, isHidden file = false → names = [name, "docs", file] →
      found = some entry → Readable layouts file entry) :
    Advances layouts given first (Function.update first names found) := by
  refine .of_files (fun other short => Function.update_of_ne ?_ ..) ?_
  · rintro rfl
    exact absurd deep (Nat.ne_of_lt short)
  · intro name file entry seen there
    rw [Function.update_apply] at there
    split at there
    next here => exact .inr (readable name file entry seen here.symm there)
    next => exact .inl there

/-- One file goes. -/
theorem of_removal {names : List String} (deep : names.length = 3) :
    Advances layouts given first (Function.update first names none) :=
  .of_update deep fun _ _ _ _ _ found => absurd found (Option.some_ne_none _).symm

section

variable {hidden : String} (isHidden : isHidden hidden = true)
include isHidden

theorem ne_of_named {name : String} (named : Named name) : name ≠ hidden := by
  rintro rfl
  rw [named.seen] at isHidden
  cases isHidden

/-- Nothing changes but under a hidden name, where the directory for documents stays. -/
theorem of_hidden (same : ∀ head rest, head ≠ hidden → second (head :: rest) = first (head :: rest))
    (shelf : second [hidden, "docs"] = first [hidden, "docs"]) :
    Advances layouts given first second := by
  refine .of_shelves (fun name named whole => whole.congr fun rest =>
    same name rest (ne_of_named isHidden named)) fun head _ => shelf?_congr ?_
  by_cases isHere : head = hidden
  · rw [isHere, shelf]
  · exact same head ["docs"] isHere

/-- Under a hidden name a directory for documents is made. -/
theorem makes {identity : Nat} (isNew : given ≤ identity)
    (fresh : ∀ names entry, first names = some entry → entry.identity? ≠ some identity)
    (same : ∀ head rest, head ≠ hidden → second (head :: rest) = first (head :: rest))
    (made : shelf? second hidden = some identity) : Advances layouts given first second := by
  have elsewhere {head : String} (differ : head ≠ hidden) :
      shelf? second head = shelf? first head := shelf?_congr (same head ["docs"] differ)
  have old {head : String} : shelf? first head ≠ some identity := fun found =>
    fresh _ _ (shelf?_eq_some_iff.mp found) rfl
  constructor
  case whole =>
    exact fun name named whole => whole.congr fun rest =>
      same name rest (ne_of_named isHidden named)
  case apart =>
    intro apart head other identity' isHead isOther found found'
    by_cases isMade : head = hidden <;> by_cases isMade' : other = hidden
    · rw [isMade, isMade']
    · rw [isMade, made] at found
      rw [elsewhere isMade', ← found] at found'
      exact absurd found' old
    · rw [isMade', made] at found'
      rw [elsewhere isMade, ← found'] at found
      exact absurd found old
    · rw [elsewhere isMade] at found
      rw [elsewhere isMade'] at found'
      exact apart head other identity' isHead isOther found found'
  case lasts =>
    exact fun _ name identity' named found =>
      .inl ((elsewhere (ne_of_named isHidden named)).trans found)
  case discarded =>
    intro identity' before discarded head isHead found
    by_cases isMade : head = hidden
    · rw [isMade, made] at found
      cases found
      exact absurd before (Nat.not_lt.mpr isNew)
    · rw [elsewhere isMade] at found
      exact discarded head isHead found

/-- What is under a hidden name is removed. -/
theorem sweeps : Advances layouts given first (first.without [hidden]) := by
  have elsewhere {head : String} (rest : List String) (differ : head ≠ hidden) :
      first.without [hidden] (head :: rest) = first (head :: rest) := by
    rw [Branch.without_singleton, if_neg differ]
  have known {head : String} {identity : Nat}
      (found : shelf? (first.without [hidden]) head = some identity) :
      shelf? first head = some identity := by
    rw [shelf?_eq_some_iff, Branch.without_singleton] at found
    split at found
    · cases found
    · exact shelf?_eq_some_iff.mpr found
  constructor
  case whole =>
    exact fun name named whole => whole.congr fun rest =>
      elsewhere rest (ne_of_named isHidden named)
  case apart =>
    exact fun apart head other identity isHead isOther found found' =>
      apart head other identity isHead isOther (known found) (known found')
  case lasts =>
    exact fun _ name identity named found =>
      .inl ((shelf?_congr (elsewhere ["docs"] (ne_of_named isHidden named))).trans found)
  case discarded =>
    exact fun identity _ discarded head isHead found => discarded head isHead (known found)

/-- A collection that has been prepared under a hidden name comes to its place, where there is none.
-/
theorem appears {name : String} (named : Named name) (inUse : InUse hidden)
    (vacancy : ∀ rest, first (name :: rest) = none) {identity identity' : Nat}
    (isDirectory : first [hidden] = some (.directory identity))
    (isShelf : first [hidden, "docs"] = some (.directory identity'))
    (empty : ∀ file, first [hidden, "docs", file] = none) :
    Advances layouts given first (first.relocated [hidden] [name]) := by
  have differ : name ≠ hidden := ne_of_named isHidden named
  have there (rest : List String) :
      first.relocated [hidden] [name] (name :: rest) = first (hidden :: rest) := by
    rw [Branch.relocated_singleton, if_pos rfl]
  have elsewhere {head : String} (rest : List String) (notName : head ≠ name)
      (notHidden : head ≠ hidden) :
      first.relocated [hidden] [name] (head :: rest) = first (head :: rest) := by
    rw [Branch.relocated_singleton, if_neg notName, if_neg notHidden]
  -- every directory for documents has been there before, under this or that name
  have known {head : String} {identity : Nat}
      (found : shelf? (first.relocated [hidden] [name]) head = some identity) :
      head = name ∧ shelf? first hidden = some identity
        ∨ head ≠ name ∧ head ≠ hidden ∧ shelf? first head = some identity := by
    by_cases isName : head = name
    · rw [isName, shelf?_congr (there ["docs"])] at found
      exact .inl ⟨isName, found⟩
    · by_cases isHere : head = hidden
      · rw [isHere, shelf?_eq_some_iff, Branch.relocated_singleton, if_neg differ.symm, if_pos rfl]
          at found
        cases found
      · rw [shelf?_congr (elsewhere ["docs"] isName isHere)] at found
        exact .inr ⟨isName, isHere, found⟩
  constructor
  case whole =>
    intro other isNamed whole
    by_cases isName : other = name
    · subst isName
      refine ⟨.inr ⟨identity, identity', (there []).trans isDirectory, (there _).trans isShelf⟩, ?_⟩
      intro file entry _ found
      rw [there, empty] at found
      cases found
    · exact whole.congr fun rest => elsewhere rest isName (ne_of_named isHidden isNamed)
  case apart =>
    intro apart head other identity isHead isOther found found'
    rcases known found with ⟨rfl, was⟩ | ⟨notName, notHidden, was⟩ <;>
      rcases known found' with ⟨rfl, was'⟩ | ⟨notName', notHidden', was'⟩
    · rfl
    · exact absurd (apart other hidden identity isOther inUse was' was) notHidden'
    · exact absurd (apart head hidden identity isHead inUse was was') notHidden
    · exact apart head other identity isHead isOther was was'
  case lasts =>
    intro _ other identity isNamed found
    have notName : other ≠ name := by
      rintro rfl
      rw [shelf?_eq_some_iff, vacancy] at found
      cases found
    have stays := elsewhere ["docs"] notName (ne_of_named isHidden isNamed)
    exact .inl ((shelf?_congr stays).trans found)
  case discarded =>
    intro identity _ discarded head isHead found
    rcases known found with ⟨_, was⟩ | ⟨_, _, was⟩
    · exact discarded hidden inUse was
    · exact discarded head isHead was

end

/-- A collection is moved away. -/
theorem vanishes {name : String} (named : Named name) (number : Nat) :
    Advances layouts given first
      (first.relocated [name] [".trash-" ++ Machine.freshName number]) := by
  have hidden := Files.mark_trash.isHidden number
  generalize isTrash : ".trash-" ++ Machine.freshName number = trash at hidden ⊢
  have gone (rest : List String) : first.relocated [name] [trash] (name :: rest) = none := by
    rw [Branch.relocated_singleton, if_neg (ne_of_named hidden named), if_pos rfl]
  have elsewhere {head : String} (rest : List String) (notName : head ≠ name)
      (notTrash : head ≠ trash) :
      first.relocated [name] [trash] (head :: rest) = first (head :: rest) := by
    rw [Branch.relocated_singleton, if_neg notTrash, if_neg notName]
  have known {head : String} {identity : Nat} (isHead : InUse head)
      (found : shelf? (first.relocated [name] [trash]) head = some identity) :
      head ≠ name ∧ shelf? first head = some identity := by
    by_cases isName : head = name
    · rw [isName, shelf?_eq_some_iff, gone] at found
      cases found
    · rw [shelf?_congr (elsewhere ["docs"] isName (isTrash ▸ isHead.noTrash number))] at found
      exact ⟨isName, found⟩
  constructor
  case whole =>
    intro other isNamed whole
    by_cases isName : other = name
    · subst isName
      refine ⟨.inl ⟨gone [], gone ["docs"]⟩, fun file entry _ found => ?_⟩
      rw [gone] at found
      cases found
    · exact whole.congr fun rest => elsewhere rest isName (ne_of_named hidden isNamed)
  case apart =>
    exact fun apart head other identity isHead isOther found found' =>
      apart head other identity isHead isOther (known isHead found).2 (known isOther found').2
  case lasts =>
    intro apart other identity isNamed found
    by_cases isName : other = name
    · subst isName
      refine .inr ⟨gone [], fun head isHead found' => ?_⟩
      obtain ⟨notName, was⟩ := known isHead found'
      exact notName (apart head other identity isHead isNamed.inUse was found)
    · have stays := elsewhere ["docs"] isName (ne_of_named hidden isNamed)
      exact .inl ((shelf?_congr stays).trans found)
  case discarded =>
    exact fun identity _ discarded head isHead found =>
      discarded head isHead (known isHead found).2

/-! ## Steps of an owner -/

section

variable {origin : Disk} {home : Place} {heads : Set String} {branch view view' : Branch}
  {disk disk' : Disk} {head : String} {identity : Nat}

/-- Where the names are one's own, one sees the directories that there are. -/
theorem shelf?_of_own (sees : Sees origin home heads view branch disk) (isOwn : head ∈ heads) :
    shelf? view head = shelf? branch head :=
  shelf?_congr (sees.same [head, "docs"] isOwn).symm

/-- One sees no other directories. -/
theorem own_of_shelf? (sees : Sees origin home heads view branch disk)
    (found : shelf? view head = some identity) : head ∈ heads := by
  by_contra notOwn
  rw [shelf?_eq_some_iff, sees.inside [head, "docs"] notOwn] at found
  cases found

/-- The identity of a directory of one's own is the identity of no other one. -/
theorem ne_of_own (sees : Sees origin home heads view branch disk) {other : String}
    (isOwn : head ∈ heads) (notOwn : other ∉ heads) (found : shelf? branch head = some identity) :
    shelf? branch other ≠ some identity :=
  fun found' => sees.apart [head, "docs"] [other, "docs"] _ _ identity isOwn notOwn
    (shelf?_eq_some_iff.mp found) (shelf?_eq_some_iff.mp found') rfl rfl

/-- **What is a step for the owner** of some first names is a step for all. -/
theorem lift (moved : Advances layouts given view view')
    (sees : Sees origin home heads view first disk)
    (sees' : Sees origin home heads view' second disk')
    (unmoved : ∀ names, ¬ Under heads names → second names = first names) :
    Advances layouts given first second := by
  have still {head : String} (notOwn : head ∉ heads) : shelf? second head = shelf? first head :=
    shelf?_congr (unmoved _ notOwn)
  have known {head : String} {identity : Nat} (found : shelf? view head = some identity) :
      shelf? first head = some identity :=
    (shelf?_of_own sees (own_of_shelf? sees found)).symm.trans found
  have apartView (apart : ToldApart first) : ToldApart view :=
    fun head other identity isHead isOther found found' =>
      apart head other identity isHead isOther (known found) (known found')
  constructor
  case whole =>
    intro name named whole
    by_cases isOwn : name ∈ heads
    · have wholeView := whole.congr fun rest => (sees.same (name :: rest) isOwn).symm
      exact (moved.whole name named wholeView).congr fun rest => sees'.same (name :: rest) isOwn
    · exact whole.congr fun rest => unmoved _ isOwn
  case apart =>
    intro apart head other identity isHead isOther found found'
    by_cases isOwn : head ∈ heads <;> by_cases isOwn' : other ∈ heads
    · exact moved.apart (apartView apart) head other identity isHead isOther
        ((shelf?_of_own sees' isOwn).trans found) ((shelf?_of_own sees' isOwn').trans found')
    · exact absurd found' (ne_of_own sees' isOwn isOwn' found)
    · exact absurd found (ne_of_own sees' isOwn' isOwn found')
    · exact apart head other identity isHead isOther (still isOwn ▸ found) (still isOwn' ▸ found')
  case lasts =>
    intro apart name identity named found
    by_cases isOwn : name ∈ heads
    · rcases moved.lasts (apartView apart) name identity named
          ((shelf?_of_own sees isOwn).trans found) with found' | ⟨gone, discarded⟩
      · exact .inl ((shelf?_of_own sees' isOwn).symm.trans found')
      · refine .inr ⟨(sees'.same [name] isOwn).trans gone, fun head isHead found' => ?_⟩
        by_cases isOwn' : head ∈ heads
        · exact discarded head isHead ((shelf?_of_own sees' isOwn').trans found')
        · exact ne_of_own sees isOwn isOwn' found (still isOwn' ▸ found')
    · exact .inl ((still isOwn).trans found)
  case discarded =>
    intro identity before discarded head isHead found
    by_cases isOwn : head ∈ heads
    · exact moved.discarded identity before
        (fun other isOther found' => discarded other isOther (known found')) head isHead
        ((shelf?_of_own sees' isOwn).trans found)
    · exact discarded head isHead (still isOwn ▸ found)

end

end Advances

end DocStore
