import DocStore.Files.Atomic
import DocStore.Proofs.Files.Advances
import DocStore.Proofs.Host.Confined
import DocStore.Proofs.Sorting
/-!
# Working with files below a root

What the actions on single files and directories come to, told by the view below a root of whoever
owns the files.  Reading and listing tell what the view holds and leave it as it is.  A file that is
written as a whole is in its place at the end, and the temporary file is not there any more:
`Site.atomicCreate_free`, `Site.atomicCreate_taken` and `Site.atomicWrite`.  All that others see of
it meanwhile is that the file comes to its place.
-/

set_option autoImplicit false

namespace DocStore.Host

open Disk (Branch Entry EntryKind Place Path Plain Sees Shows Under Vacant)
open Files (temporaryName)

theorem Yields.makeDirectories {origin : Disk} {home : Place} {machine : Machine} {branch : Branch}
    {path : Path} {failure : Disk.Obstacle → Failure} {disk : Disk}
    (makes : machine.disk.makeDirectories path = (.ok none, disk))
    (shows : Shows origin home branch disk) :
    Yields origin home (Host.makeDirectories path failure) machine (.ok ()) (Eq branch) :=
  tryCall_bind makes (pure () shows rfl)

namespace Secures

variable {moves : Nat → Branch → Branch → Prop} {origin : Disk} {root : Path} {home : Place}
  {heads : Set String} {view : Branch}

/-- A directory is created, if it is not there. -/
theorem ensureDirectory {path : Path} {holds : Branch → Prop} (nonempty : path ≠ [])
    (acts : ∀ disk branch, Sees origin home heads view branch disk →
      ∃ view', (disk.makeDirectories path).1 = .ok none
        ∧ Disk.Becomes origin home heads branch view' (disk.makeDirectories path).2
        ∧ Relation.ReflGen (moves disk.nextIdentity) view view' ∧ holds view') :
    Secures moves origin home heads view (Files.ensureDirectory path) (.ok ()) holds := by
  rw [Files.ensureDirectory, if_neg nonempty]
  refine tryCall_bind fun disk branch sees => ?_
  obtain ⟨view', makes, becomes, moved, held⟩ := acts disk branch sees
  exact ⟨.ok none, view', makes, becomes, moved, pure () held⟩

section

variable (vacant : Vacant origin root home)
include vacant

/-! ## Reading -/

section

variable {names : List String} (absent : view.Absent names) (own : Under heads names)
  (plain : ∀ name ∈ names, Plain name) (few : names.length ≤ Disk.maxDepth)
include absent own plain few

theorem readDocument_absent :
    Secures moves origin home heads view (Files.readDocument (root.trimmed ++ names)) (.ok none)
      (Eq view) := by
  refine reads_bind (fun disk branch sees => congrArg disk.reading
    (sees.shows.read_absent vacant (sees.absent own absent) plain few)) ?_
  exact pure none rfl

theorem removeDocument_absent :
    Secures moves origin home heads view (Files.removeDocument (root.trimmed ++ names)) (.ok false)
      (Eq view) := by
  refine reads_bind (fun disk branch sees => congrArg disk.changing
    (sees.shows.unlink_absent vacant (sees.absent own absent) plain few)) ?_
  exact pure false rfl

theorem listEntries_absent (kind : EntryKind) :
    Secures moves origin home heads view (Files.listEntries (root.trimmed ++ names) kind) (.ok [])
      (Eq view) := by
  refine reads_bind (fun disk branch sees => congrArg disk.reading
    (sees.shows.list_absent vacant (sees.absent own absent) plain few)) ?_
  exact pure [] rfl

theorem isDirectory_absent :
    Secures moves origin home heads view (Files.isDirectory (root.trimmed ++ names)) (.ok false)
      (Eq view) := by
  refine reads_bind (fun disk branch sees => congrArg disk.reading
    (sees.shows.status_absent vacant (sees.absent own absent) plain few)) ?_
  exact pure false rfl

theorem directoryIdentity_absent :
    Secures moves origin home heads view (Files.directoryIdentity (root.trimmed ++ names)) (.ok none)
      (Eq view) := by
  refine reads_bind (fun disk branch sees => congrArg disk.reading
    (sees.shows.status_absent vacant (sees.absent own absent) plain few)) ?_
  exact pure none rfl

end

omit vacant in
/-- The names that a listing gives, when it is known which entries of a kind are there. -/
theorem sort_lists {names : List String} {kind : EntryKind} {listed : List (String × EntryKind)}
    (lists : view.Lists names listed) {found : List String} (distinct : found.Nodup)
    (holds : ∀ name, name ∈ found
      ↔ ∃ entry, view (names ++ [name]) = some entry ∧ entry.kind = kind) :
    Sorting.sort Text.before ((listed.filter fun entry => entry.2 == kind).map Prod.fst)
      = Sorting.sort Text.before found := by
  refine Sorting.sort_eq_of_perm Text.ranks_before ?_ fun first _ second _ notBefore notAfter =>
    Text.eq_of_not_before notBefore notAfter
  rw [List.perm_ext_iff_of_nodup (lists.nodup_ofKind kind) distinct]
  intro name
  rw [holds, lists.mem_ofKind]

omit vacant in
/-- A directory that can be listed has its entries listed by name. -/
theorem listEntries {path : Path} (names : List String) {kind : EntryKind}
    (lists : ∀ disk branch, Sees origin home heads view branch disk →
      ∃ listed, disk.list path = .ok listed ∧ view.Lists names listed)
    {found : List String} (distinct : found.Nodup)
    (holds : ∀ name, name ∈ found
      ↔ ∃ entry, view (names ++ [name]) = some entry ∧ entry.kind = kind) :
    Secures moves origin home heads view (Files.listEntries path kind)
      (.ok (Sorting.sort Text.before found)) (Eq view) := by
  refine tryCall_bind fun disk branch sees => ?_
  obtain ⟨listed, isListed, lists⟩ := lists disk branch sees
  have answers : disk.answer (.list path) = (.ok listed, disk) := congrArg disk.reading isListed
  refine ⟨.ok listed, view, congrArg Prod.fst answers, by
    rw [answers]
    exact sees.becomes, .refl, ?_⟩
  rw [← sort_lists lists distinct holds]
  exact pure _ rfl

/-- Who owns everything can list the root. -/
theorem listEntries_root {kind : EntryKind} (whole : ∀ name, name ∈ heads) (found : List String)
    (distinct : found.Nodup)
    (holds : ∀ name, name ∈ found ↔ ∃ entry, view [name] = some entry ∧ entry.kind = kind) :
    Secures moves origin home heads view (Files.listEntries root kind)
      (.ok (Sorting.sort Text.before found)) (Eq view) := by
  refine listEntries [] (fun disk branch sees => ?_) distinct holds
  obtain ⟨listed, isListed, lists⟩ := sees.shows.list_root vacant
  exact ⟨listed, isListed, lists.1, fun name kind => by
    rw [lists.2, sees.same _ (show Under heads ([] ++ [name]) from whole name)]⟩

section

variable {names : List String} (leads : view.Leads names) {last : String}
  (own : Under heads (names ++ [last])) (plain : ∀ name ∈ names ++ [last], Plain name)
  (few : names.length < Disk.maxDepth)
include leads own plain few

section

variable {identity : Nat} (isDirectory : view (names ++ [last]) = some (.directory identity))
include isDirectory

theorem isDirectory_directory :
    Secures moves origin home heads view (Files.isDirectory (root.trimmed ++ (names ++ [last])))
      (.ok true) (Eq view) := by
  refine reads_bind (fun disk branch sees => congrArg disk.reading
    (sees.shows.status_directory vacant (sees.leads own leads) plain few
      ((sees.same _ own).trans isDirectory))) ?_
  exact pure true rfl

theorem directoryIdentity_directory :
    Secures moves origin home heads view (Files.directoryIdentity (root.trimmed ++ (names ++ [last])))
      (.ok (some identity)) (Eq view) := by
  refine reads_bind (fun disk branch sees => congrArg disk.reading
    (sees.shows.status_directory vacant (sees.leads own leads) plain few
      ((sees.same _ own).trans isDirectory))) ?_
  exact pure (some identity) rfl

theorem listEntries_directory {kind : EntryKind} (found : List String) (distinct : found.Nodup)
    (holds : ∀ name, name ∈ found
      ↔ ∃ entry, view (names ++ [last] ++ [name]) = some entry ∧ entry.kind = kind) :
    Secures moves origin home heads view (Files.listEntries (root.trimmed ++ (names ++ [last])) kind)
      (.ok (Sorting.sort Text.before found)) (Eq view) := by
  refine listEntries _ (fun disk branch sees => ?_) distinct holds
  obtain ⟨listed, isListed, lists⟩ := sees.shows.list_directory vacant (sees.leads own leads) plain
    few ((sees.same _ own).trans isDirectory)
  exact ⟨listed, isListed, sees.lists own lists⟩

theorem ensureDirectory_directory :
    Secures moves origin home heads view (Files.ensureDirectory (root.trimmed ++ (names ++ [last])))
      (.ok ()) (Eq view) := by
  refine ensureDirectory (by simp) fun disk branch sees => ?_
  rw [sees.shows.makeDirectories_directory vacant (sees.leads own leads) plain few
    ((sees.same _ own).trans isDirectory)]
  exact ⟨view, rfl, sees.becomes, .refl, rfl⟩

end

section

variable {identity : Nat} {content : String}
  (isFile : view (names ++ [last]) = some (.file identity content))
include isFile

theorem readDocument_file :
    Secures moves origin home heads view (Files.readDocument (root.trimmed ++ (names ++ [last])))
      (.ok (some content)) (Eq view) := by
  refine reads_bind (fun disk branch sees => congrArg disk.reading
    (sees.shows.read_file vacant (sees.leads own leads) plain few
      ((sees.same _ own).trans isFile))) ?_
  exact pure (some content) rfl

/-- The only entry at and below a place is removed. -/
theorem unlink_bind {β : Type} {next : Except Disk.Errno Unit → Action β}
    {result : Except Failure β} {holds : Branch → Prop}
    (bare : view.Bare (names ++ [last]))
    (moved : ∀ given, moves given view (Function.update view (names ++ [last]) none))
    (goesOn : Secures moves origin home heads (Function.update view (names ++ [last]) none)
      (next (.ok ())) result holds) :
    Secures moves origin home heads view
      (Host.tryCall (.unlink (root.trimmed ++ (names ++ [last]))) >>= next) result holds := by
  refine tryCall_bind fun disk branch sees => ?_
  have answers := congrArg disk.changing (sees.shows.unlink_file vacant (sees.leads own leads) plain
    few ((sees.same _ own).trans isFile))
  refine ⟨.ok (), Function.update view (names ++ [last]) none, congrArg Prod.fst answers, ?_,
    .single (moved _), goesOn⟩
  rw [← Branch.without_eq_update bare, Disk.answer, answers]
  exact sees.without own

theorem removeDocument_file (bare : view.Bare (names ++ [last]))
    (moved : ∀ given, moves given view (Function.update view (names ++ [last]) none)) :
    Secures moves origin home heads view (Files.removeDocument (root.trimmed ++ (names ++ [last])))
      (.ok true) (Eq (Function.update view (names ++ [last]) none)) :=
  unlink_bind vacant leads own plain few isFile bare moved (pure true rfl)

end

end

end

/-! ## Writing -/

theorem syncEntries {directory : Path} :
    Secures moves origin home heads view (Files.syncEntries directory) (.ok ()) (Eq view) :=
  reads_bind (fun _ _ _ => rfl) (pure () rfl)

end Secures

/-! ## Files that are written as a whole -/

section

variable {names : List String} {last : String} (inside : names ≠ [])
include inside

theorem parent_below (plain : Plain last) (root : Path) :
    Path.parent (root.trimmed ++ (names ++ [last])) = root.trimmed ++ names := by
  rw [← List.append_assoc]
  exact Path.parent_concat (by simp [inside]) plain.nonempty

theorem temporaryPath_below (plain : ∀ name ∈ names ++ [last], Plain name) (root : Path)
    (fresh : String) : Files.temporaryPath (root.trimmed ++ (names ++ [last])) fresh
      = root.trimmed ++ (names ++ [temporaryName last fresh]) := by
  have plainLast := plain last (by simp)
  rw [Files.temporaryPath, parent_below inside plainLast, Path.child,
    Path.trimmed_below _ inside fun name member => plain name (by simp [member]),
    ← List.append_assoc, Path.name_concat _ plainLast.nonempty, List.append_assoc]
  rfl

end

/-- A place for a file in a directory, beside which the file can be written under a temporary name.
-/
structure Site (branch : Branch) (names : List String) (last : String) : Prop where
  leads : branch.Leads names
  deep : names.length = 2
  plain : ∀ name ∈ names ++ [last], Plain name
  bare : branch.Bare (names ++ [last])
  plainBeside : ∀ number, Plain (temporaryName last (Machine.freshName number))
  free : ∀ number, branch (names ++ [temporaryName last (Machine.freshName number)]) = none
  bareBeside : ∀ number, branch.Bare (names ++ [temporaryName last (Machine.freshName number)])

/-- Moves by which a temporary file may come, be filled and go, whatever else there is. -/
def Beside (moves : Nat → Branch → Branch → Prop) (names : List String) (last : String) : Prop :=
  ∀ (given : Nat) (view : Branch) (number : Nat) (found : Option Entry), moves given view
    (Function.update view (names ++ [temporaryName last (Machine.freshName number)]) found)

/-- Moves by which a file with some content may come to its place, whatever becomes of the temporary
one. -/
def Settles (moves : Nat → Branch → Branch → Prop) (branch : Branch) (names : List String)
    (last content : String) : Prop :=
  ∀ (given number identity : Nat) (found found' : Option Entry), moves given
    (Function.update branch (names ++ [temporaryName last (Machine.freshName number)]) found)
    (Function.update
      (Function.update branch (names ++ [temporaryName last (Machine.freshName number)]) found')
      (names ++ [last]) (some (.file identity content)))

namespace Site

variable {moves : Nat → Branch → Branch → Prop} {layouts : Set Json.Layout} {origin : Disk}
  {root : Path} {home : Place} {heads : Set String} {branch : Branch} {names : List String} {last : String}

theorem inside (site : Site branch names last) : names ≠ [] := by
  rintro rfl
  exact absurd site.deep (by decide)

theorem few (site : Site branch names last) : names.length < Disk.maxDepth := by
  rw [site.deep]
  decide

theorem length_concat (site : Site branch names last) (other : String) :
    (names ++ [other]).length = 3 := by
  rw [List.length_append, site.deep, List.length_singleton]

theorem plain_temporary (site : Site branch names last) (number : Nat) :
    ∀ name ∈ names ++ [temporaryName last (Machine.freshName number)], Plain name := by
  intro name member
  rcases List.mem_append.mp member with inNames | isLast
  · exact site.plain name (List.mem_append_left _ inNames)
  · obtain rfl := List.mem_singleton.mp isLast
    exact site.plainBeside number

theorem parent_eq (site : Site branch names last) (root : Path) :
    Path.parent (root.trimmed ++ (names ++ [last])) = root.trimmed ++ names :=
  parent_below site.inside (site.plain last (by simp)) root

theorem ne_temporary {name file : String} (seen : Files.isHidden file = false) (number : Nat) :
    [name, "docs", file] ≠ names ++ [temporaryName last (Machine.freshName number)] := by
  intro same
  have lasts := congrArg List.getLast? same
  rw [List.getLast?_concat] at lasts
  rw [show file = _ from Option.some.inj lasts, Files.isHidden_temporaryName] at seen
  cases seen

variable (layouts) in
/-- A temporary file is hidden from those who read. -/
theorem advances_beside (site : Site branch names last) :
    Beside (Advances layouts) names last := fun _ _ _ _ =>
  .of_update (site.length_concat _) fun _ _ _ seen here _ =>
    absurd here.symm (ne_temporary seen _)

/-- A file that can be read comes to its place, whatever becomes of the temporary one. -/
theorem advances_last (site : Site branch names last) {content : String}
    (readable : ∀ identity name, names = [name, "docs"] →
      Readable layouts last (.file identity content)) :
    Settles (Advances layouts) branch names last content := by
  intro given number identity found found'
  have short {other : List String} (few : other.length < 3) (last : String) : other ≠ names ++ [last] :=
    fun same => absurd (site.length_concat last) (Nat.ne_of_lt (same ▸ few))
  refine .of_files (fun other few => ?_) fun name file entry' seen there => ?_
  · rw [Function.update_of_ne (short few _), Function.update_of_ne (short few _),
      Function.update_of_ne (short few _)]
  · rw [Function.update_of_ne (ne_temporary seen number)]
    rw [Function.update_apply] at there
    split at there
    next here =>
      obtain ⟨isNames, isLast⟩ := List.append_inj' (show [name, "docs"] ++ [file] = _ from here) rfl
      cases there
      exact .inr (List.singleton_inj.mp isLast ▸ readable identity name isNames.symm)
    next =>
      rw [Function.update_of_ne (ne_temporary seen number)] at there
      exact .inl there

theorem temporaryPath_eq (site : Site branch names last) (root : Path) (fresh : String) :
    Files.temporaryPath (root.trimmed ++ (names ++ [last])) fresh
      = root.trimmed ++ (names ++ [temporaryName last fresh]) :=
  temporaryPath_below site.inside site.plain root fresh

section

variable (site : Site branch names last) (vacant : Vacant origin root home)
  (own : Under heads names)
include site vacant own

theorem ensureDirectory :
    Secures moves origin home heads branch
      (Files.ensureDirectory (Path.parent (root.trimmed ++ (names ++ [last])))) (.ok ())
      (Eq branch) := by
  obtain ⟨above, directory, rfl⟩ := (List.eq_nil_or_concat' names).resolve_left site.inside
  obtain ⟨identity, isDirectory⟩ := site.leads _ (List.prefix_refl _) site.inside
  have few := site.few
  rw [List.length_append] at few
  rw [site.parent_eq]
  exact Secures.ensureDirectory_directory vacant
    (fun front isFront => site.leads front (isFront.trans (List.prefix_append _ _))) own
    (fun name member => site.plain name (List.mem_append_left _ member))
    (Nat.lt_of_succ_lt few) isDirectory

/-- A file is written beside the place, with an identity of its own. -/
theorem writeTemporary (beside : Beside moves names last) (content : String) (number : Nat) :
    Secures moves origin home heads branch
      (Files.writeTemporary
        (Files.temporaryPath (root.trimmed ++ (names ++ [last])) (Machine.freshName number))
        content)
      (.ok (.ok ()))
      fun view => ∃ identity,
        (∀ other entry, branch other = some entry → entry.identity? ≠ some identity)
          ∧ view = Function.update branch
            (names ++ [temporaryName last (Machine.freshName number)])
            (some (.file identity content)) := by
  rw [site.temporaryPath_eq]
  have ownBeside := own.append [temporaryName last (Machine.freshName number)]
  refine .tryCall_bind fun disk branch' sees => ?_
  have answers := congrArg disk.opening (sees.shows.openEmpty_free vacant
    (sees.leads ownBeside site.leads) (site.plain_temporary number) site.few
    ((sees.same _ ownBeside).trans (site.free number)))
  have isNew := sees.isNew (Nat.le_refl disk.nextIdentity)
  have opened := sees.addFile ownBeside
  refine ⟨.ok disk.nextIdentity, _, congrArg Prod.fst answers, by
    rw [Disk.answer, answers]
    exact opened, .single (beside _ _ number _), ?_⟩
  have grown := sees.shows.grown
  generalize disk.nextIdentity = identity at isNew grown ⊢
  -- the file keeps its identity, whatever others do before it is filled
  have fills : Secures moves origin home heads
      (Function.update branch (names ++ [temporaryName last (Machine.freshName number)])
        (some (.file identity "")))
      (Files.fill identity content) (.ok (.ok ()))
      (Eq (Function.update branch (names ++ [temporaryName last (Machine.freshName number)])
        (some (.file identity content)))) := by
    refine .tryCall_bind fun disk branch' sees => ⟨.ok (), _, rfl,
      sees.setContent vacant ownBeside grown (Function.update_self ..) content, .single ?_, ?_⟩
    · have moved := beside disk.nextIdentity
        (Function.update branch (names ++ [temporaryName last (Machine.freshName number)])
          (some (.file identity ""))) number (some (.file identity content))
      rw [Function.update_idem] at moved
      rwa [Branch.written_update isNew]
    refine .reads_bind (fun _ _ _ => rfl) ?_
    exact .pure _ (Branch.written_update isNew _ content).symm
  refine .bind fills fun view same => .reads_bind (fun _ _ _ => rfl) ?_
  exact .pure _ ⟨identity, isNew, same.symm⟩

end

/-! The branch while the temporary file is there -/

section

variable (site : Site branch names last) (number : Nat) (file : Option Entry)

variable (names last) in
theorem beside_ne : names ++ [last] ≠ names ++ [temporaryName last (Machine.freshName number)] :=
  fun same => Files.temporaryName_ne last (Machine.freshName number)
    (List.singleton_inj.mp (List.append_cancel_left same)).symm

variable (names last) in
theorem apart : Disk.below (names ++ [last])
    (names ++ [temporaryName last (Machine.freshName number)]) = false := by
  rw [Disk.below_append_append, Disk.below]
  simp [List.isPrefixOf, (Files.temporaryName_ne last (Machine.freshName number)).symm]

variable (names last) in
theorem apart' : Disk.below (names ++ [temporaryName last (Machine.freshName number)])
    (names ++ [last]) = false := by
  rw [Disk.below_append_append, Disk.below]
  simp [List.isPrefixOf, Files.temporaryName_ne last (Machine.freshName number)]

include site

theorem leads_beside : Branch.Leads (Function.update branch
    (names ++ [temporaryName last (Machine.freshName number)]) file) names :=
  site.leads.update_last _ _

theorem bare_beside : Branch.Bare (Function.update branch
    (names ++ [temporaryName last (Machine.freshName number)]) file)
    (names ++ [temporaryName last (Machine.freshName number)]) := by
  intro rest nonempty
  rw [Function.update_of_ne (by simpa using nonempty)]
  exact site.bareBeside number rest nonempty

end

section

variable (site : Site branch names last) (vacant : Vacant origin root home)
  (own : Under heads names)
include site vacant own

/-- The temporary file is removed at the end. -/
theorem discard (beside : Beside moves names last) {number : Nat} {view : Branch} {identity : Nat}
    {content : String} (leads : view.Leads names)
    (isFile : view (names ++ [temporaryName last (Machine.freshName number)])
      = some (.file identity content))
    (bare : view.Bare (names ++ [temporaryName last (Machine.freshName number)])) :
    Secures moves origin home heads view
      (Files.discard (root.trimmed ++ (names ++ [temporaryName last (Machine.freshName number)])))
      (.ok ())
      (Eq (Function.update view (names ++ [temporaryName last (Machine.freshName number)])
        none)) :=
  .unlink_bind vacant leads (own.append _) (site.plain_temporary number) site.few isFile bare
    (fun _ => beside _ view number none) (.pure () rfl)

/-- Where a file is there already, none is created. -/
theorem atomicCreate_taken (beside : Beside moves names last) {content : String} {entry : Entry}
    (taken : branch (names ++ [last]) = some entry) :
    Secures moves origin home heads branch
      (Files.atomicCreate (root.trimmed ++ (names ++ [last])) content)
      (.error (.fileExists (Path.text (root.trimmed ++ (names ++ [last]))))) (Eq branch) := by
  refine .bind_same (site.ensureDirectory vacant own) (.freshName_bind fun number =>
    .bind (site.writeTemporary vacant own beside content number) fun view written => ?_)
  obtain ⟨identity, _, rfl⟩ := written
  rw [site.temporaryPath_eq]
  have leads := site.leads_beside number (some (.file identity content))
  refine .reads_bind
    (fun disk branch' sees => (?_ : disk.answer _ = (.error .exists, disk))) ?_
  · have located := sees.shows.locateEntry vacant (sees.leads (own.append [last]) leads)
      (site.plain_temporary number) site.few
    rw [sees.same _ (own.append _), Function.update_self] at located
    have links := sees.shows.addLink_below vacant (sees.leads (own.append [last]) leads) site.plain
      site.few located rfl
    rw [sees.same _ (own.append [last]), Function.update_of_ne (beside_ne names last number), taken,
      Option.isSome_some, if_pos rfl] at links
    exact congrArg disk.changing links
  · have discarded := site.discard vacant own beside leads
      (Function.update_self (names ++ [temporaryName last (Machine.freshName number)])
        (some (.file identity content)) branch) (site.bare_beside number _)
    rw [Function.update_idem, ← site.free number, Function.update_eq_self] at discarded
    exact .bind discarded fun view same => .fail _ same

/-- Where nothing is there yet, a file is created. -/
theorem atomicCreate_free (beside : Beside moves names last) {content : String}
    (free : branch (names ++ [last]) = none) (settles : Settles moves branch names last content) :
    Secures moves origin home heads branch
      (Files.atomicCreate (root.trimmed ++ (names ++ [last])) content)
      (.ok ()) fun view => ∃ identity,
        view = Function.update branch (names ++ [last]) (some (.file identity content)) := by
  refine .bind_same (site.ensureDirectory vacant own) (.freshName_bind fun number =>
    .bind (site.writeTemporary vacant own beside content number) fun view written => ?_)
  obtain ⟨identity, _, rfl⟩ := written
  rw [site.temporaryPath_eq]
  have leads := site.leads_beside number (some (.file identity content))
  refine .tryCall_bind fun disk branch' sees => ?_
  have located := sees.shows.locateEntry vacant (sees.leads (own.append [last]) leads)
    (site.plain_temporary number) site.few
  rw [sees.same _ (own.append _), Function.update_self] at located
  have links := sees.shows.addLink_below vacant (sees.leads (own.append [last]) leads) site.plain
    site.few located rfl
  rw [sees.same _ (own.append [last]), Function.update_of_ne (beside_ne names last number), free,
    if_neg (by simp)] at links
  have answers := congrArg disk.changing links
  have linked := sees.addLink (own.append [last])
    (own.append [temporaryName last (Machine.freshName number)])
    (Function.update_self (names ++ [temporaryName last (Machine.freshName number)])
      (some (.file identity content)) branch)
  refine ⟨.ok (), _, congrArg Prod.fst answers, by
    rw [Disk.answer, answers]
    exact linked, .single (settles ..),
    .bind_same .syncEntries ?_⟩
  have leads' : Branch.Leads (Function.update (Function.update branch
      (names ++ [temporaryName last (Machine.freshName number)]) (some (.file identity content)))
      (names ++ [last]) (some (.file identity content))) names := leads.update_last _ _
  have isFile : Function.update (Function.update branch
      (names ++ [temporaryName last (Machine.freshName number)]) (some (.file identity content)))
      (names ++ [last]) (some (.file identity content))
      (names ++ [temporaryName last (Machine.freshName number)]) = some (.file identity content) := by
    rw [Function.update_of_ne (Ne.symm (beside_ne names last number)), Function.update_self]
  have discarded := site.discard vacant own beside leads' isFile
    ((site.bare_beside number _).update (apart' names last number) _)
  refine discarded.mono fun view same => ⟨identity, ?_⟩
  rw [← same, Function.update_comm (beside_ne names last number), Function.update_idem,
    ← site.free number, Function.update_eq_self]

/-- Where a file is there, another one takes its place. -/
theorem atomicWrite (beside : Beside moves names last) {content content' : String}
    {identity' : Nat} (isFile : branch (names ++ [last]) = some (.file identity' content'))
    (settles : Settles moves branch names last content) :
    Secures moves origin home heads branch
      (Files.atomicWrite (root.trimmed ++ (names ++ [last])) content)
      (.ok ()) fun view => ∃ identity,
        view = Function.update branch (names ++ [last]) (some (.file identity content)) := by
  refine .bind_same (site.ensureDirectory vacant own) (.freshName_bind fun number =>
    .bind (site.writeTemporary vacant own beside content number) fun view written => ?_)
  obtain ⟨identity, isNew, rfl⟩ := written
  rw [site.temporaryPath_eq]
  have leads := site.leads_beside number (some (.file identity content))
  have differ : identity ≠ identity' := fun same =>
    isNew _ _ isFile (by rw [Entry.identity?, same])
  refine .tryCall_bind fun disk branch' sees => ?_
  have located := sees.shows.locateEntry vacant (sees.leads (own.append [last]) leads)
    (site.plain_temporary number) site.few
  rw [sees.same _ (own.append _), Function.update_self] at located
  have answers := congrArg disk.changing (sees.shows.rename_file vacant
    (sees.leads (own.append [last]) leads) site.plain site.few located (by
      rw [sees.same _ (own.append [last]), Function.update_of_ne (beside_ne names last number),
        isFile]) differ (beside_ne names last number).symm)
  have renamed := sees.relocate (own.append _) (own.append [last]) (apart' names last number)
    (apart names last number)
  rw [Branch.relocated_update (site.bareBeside number) site.bare (site.free number)] at renamed
  refine ⟨.ok (), _, congrArg Prod.fst answers, by
    rw [Disk.answer, answers]
    exact renamed, .single ?_, ?_⟩
  · have moved := settles disk.nextIdentity number identity (some (.file identity content)) none
    rwa [← site.free number, Function.update_eq_self] at moved
  · exact Secures.syncEntries.mono fun view same => ⟨identity, same.symm⟩

end

end Site

end DocStore.Host

/-! ## Listing when nobody else is about -/

namespace DocStore.Files

open Disk (Path)
open Host (Machine)

variable {machine : Machine} {directory : Path}

theorem eval_listEntries {listed : List (String × Disk.EntryKind)}
    (answers : machine.disk.list directory = .ok listed) (kind : Disk.EntryKind) :
    machine.eval (listEntries directory kind)
      = (.ok (Sorting.sort Text.before
        ((listed.filter fun entry => entry.2 == kind).map Prod.fst)), machine) :=
  Machine.eval_tryCall_bind machine (congrArg machine.disk.reading answers) rfl

theorem eval_listEntries_missing (answers : machine.disk.list directory = .error .noEntry)
    (kind : Disk.EntryKind) : machine.eval (listEntries directory kind) = (.ok [], machine) :=
  Machine.eval_tryCall_bind machine (congrArg machine.disk.reading answers) rfl

theorem eval_listFiles {names : List String}
    (lists : machine.eval (listEntries directory .file) = (.ok names, machine)) (ending : String) :
    machine.eval (listFiles directory ending)
      = (.ok (names.filter fun name => !isHidden name && (ending = "" || hasEnding ending name)),
        machine) :=
  (Attempt.eval_bind_ok lists).trans rfl

end DocStore.Files
