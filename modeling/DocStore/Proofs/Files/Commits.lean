import DocStore.Proofs.Files.Tidy
import DocStore.Proofs.Host.Interrupted
/-!
# Files that are interrupted while being written

A file that is written as a whole comes to its place in one call, the one that links the temporary
file there or moves it there; all calls before and after concern the temporary file, which is
hidden. So wherever the writing is interrupted, what is seen is what was seen before, or the same
with the new file: `Spot.atomicCreate` and `Spot.atomicWrite`.  Where a file is there already
creating another one changes nothing that is seen (`Spot.atomicCreate_taken`).
-/

set_option autoImplicit false

namespace DocStore

open Disk (Branch Entry Path Place Plain Shows Vacant)
open Files (Named Stored isHidden temporaryName)
open Host (Action Machine Passes ShowsSome Site)

namespace Host.Passes

variable {α β : Type} {origin : Disk} {root : Path} {home : Place} {kind : Branch → Prop}
  {machine : Machine} {branch : Branch} {holds : Branch → Prop}

/-- A directory is created, if it is not there. -/
theorem ensureDirectory_bind {path : Path} (nonempty : path ≠ []) {next : Unit → Action β}
    {disk : Disk} {result : Except Failure β} (shows : Shows origin home branch machine.disk)
    (isKind : kind branch) (makes : machine.disk.makeDirectories path = (.ok none, disk))
    (midst : ∀ left ∈ machine.disk.between path.reverse, ShowsSome origin home kind left)
    (goesOn : Passes origin home kind (next ()) { machine with disk } result holds) :
    Passes origin home kind (Files.ensureDirectory path >>= next) machine result holds := by
  rw [Files.ensureDirectory, if_neg nonempty, Host.makeDirectories, bind_assoc]
  refine .tryCall_bind shows isKind makes (fun left partly => ?_) goesOn
  cases partly with
  | makes _ isBetween => exact midst left isBetween

/-- A call that changes nothing. -/
theorem still_bind {call : Disk.Call} {next : call.Answer → Action β} {answer : call.Answer}
    {result : Except Failure β} (shows : Shows origin home branch machine.disk)
    (isKind : kind branch) (answers : machine.disk.answer call = (answer, machine.disk))
    (atOnce : ∀ left, ¬ Disk.Partly machine.disk call left)
    (goesOn : Passes origin home kind (next answer) machine result holds) :
    Passes origin home kind (Host.tryCall call >>= next) machine result holds :=
  .tryCall_bind shows isKind answers (fun left partly => absurd partly (atOnce left)) goesOn

end Host.Passes

/-- A place for a file of a collection, in a tidy branch in which a fresh name is not used. -/
structure Spot (branch : Branch) (number : Nat) (name part file : String) : Prop where
  tidy : Tidy branch
  unused : Unused branch number
  named : Named name
  there : branch [name] ≠ none
  isPart : isPart part
  stored : Stored file

namespace Spot

variable {branch : Branch} {number : Nat} {name part file : String}

section

variable (spot : Spot branch number name part file)
include spot

theorem leads : branch.Leads [name, part] :=
  spot.tidy.leads_part spot.named spot.there spot.isPart

theorem plain : ∀ other ∈ [name, part] ++ [file], Plain other :=
  spot.named.plain_names spot.isPart spot.stored.plain

theorem plain_temporary :
    ∀ other ∈ [name, part] ++ [temporaryName file (Machine.freshName number)], Plain other :=
  spot.named.plain_names spot.isPart (spot.stored.plain_temporary number)

theorem free : branch ([name, part] ++ [temporaryName file (Machine.freshName number)]) = none :=
  spot.unused.temporary name part file spot.named spot.isPart spot.stored []

end

/-- A temporary file is not seen. -/
theorem unseen (name part file : String) (number : Nat) :
    ¬ Seen ([name, part] ++ [temporaryName file (Machine.freshName number)]) :=
  not_seen_of_hidden (List.mem_append_right _ (List.mem_singleton_self _))
    (Files.isHidden_temporaryName file _)

section

variable {origin : Disk} {root : Path} {home : Place} (vacant : Vacant origin root home)
  {kind : Branch → Prop} (still : ∀ other, SeenAlike other branch → kind other) {machine : Machine}
  (spot : Spot branch machine.names name part file)
  (shows : Shows origin home branch machine.disk)
include vacant still spot shows

/-- The directory of the file is there. -/
theorem ensureDirectory_bind {α : Type} {next : Unit → Action α} {result : Except Failure α}
    {holds : Branch → Prop} (goesOn : Passes origin home kind (next ()) machine result holds) :
    Passes origin home kind
      (Files.ensureDirectory (Path.parent (root.trimmed ++ ([name, part] ++ [file]))) >>= next)
      machine result holds := by
  obtain ⟨identity, isDirectory⟩ := spot.tidy.part name part spot.named spot.there spot.isPart
  have leads := spot.tidy.leads_collection spot.named spot.there
  have plain : ∀ other ∈ [name] ++ [part], Plain other :=
    fun other member => spot.plain other (List.mem_append_left _ member)
  have parent := Host.parent_below (show [name, part] ≠ [] by simp) (spot.plain file (by simp)) root
  rw [parent]
  refine .ensureDirectory_bind (by simp) shows (still _ (.refl _))
    (shows.makeDirectories_directory vacant leads plain (show 1 < 3 by decide) isDirectory)
    (fun left isBetween => ?_) goesOn
  rw [show root.trimmed ++ [name, part] = root.trimmed ++ ([name] ++ [part]) from rfl,
    shows.between_last vacant leads plain (show 1 < 3 by decide)] at isBetween
  cases isBetween

/-- Beside its place a file is written with an identity of its own. -/
theorem writeTemporary (content : String) :
    Passes origin home kind
      (Files.writeTemporary (Files.temporaryPath (root.trimmed ++ ([name, part] ++ [file]))
        (Machine.freshName machine.names)) content)
      { machine with names := machine.names + 1 } (.ok (.ok ()))
      (Eq (Function.update branch
        ([name, part] ++ [temporaryName file (Machine.freshName machine.names)])
        (some (.file machine.disk.nextIdentity content)))) := by
  have beside (found : Option Entry) : kind (Function.update branch
      ([name, part] ++ [temporaryName file (Machine.freshName machine.names)]) found) :=
    still _ (.update _ (unseen name part file machine.names) found)
  have nonempty : [name, part] ++ [temporaryName file (Machine.freshName machine.names)] ≠ [] := by
    simp
  have opened := shows.addFile nonempty
  have written (part : String) := shows.addWritten vacant nonempty part
  rw [Host.temporaryPath_below (by simp) spot.plain]
  refine .tryCall_bind shows (still _ (.refl _)) (congrArg machine.disk.opening
    (shows.openEmpty_free vacant spot.leads spot.plain_temporary (show 2 < 3 by decide) spot.free))
    (fun _ partly => nomatch partly) ?_
  refine .bind (.tryCall_bind opened (beside _) rfl (fun left partly => ?_)
    (.still_bind (written content) (beside _) rfl (fun _ => nofun)
      (.pure _ (written content) (beside _) (Eq.refl (Function.update branch
        ([name, part] ++ [temporaryName file (Machine.freshName machine.names)])
        (some (.file machine.disk.nextIdentity content)))))))
    fun after view _ shows' same => ?_
  · cases partly with
    | writes => exact ⟨_, written _, beside _⟩
  · subst same
    exact .still_bind shows' (beside _) rfl (fun _ => nofun) (.pure _ shows' (beside _) rfl)

/-- All writing begins beside the place of the file, where nothing is seen of it. -/
theorem prepares_bind {α : Type} {content : String}
    {next : String → Except Disk.Errno Unit → Action α} {result : Except Failure α}
    {holds : Branch → Prop}
    (goesOn : ∀ (after : Machine) (view : Branch),
      view = Function.update branch
        ([name, part] ++ [temporaryName file (Machine.freshName machine.names)])
        (some (.file machine.disk.nextIdentity content)) →
      Shows origin home view after.disk → view.Leads [name, part] → SeenAlike view branch →
      after.disk.locateEntry
          (root.trimmed ++ ([name, part] ++ [temporaryName file (Machine.freshName machine.names)]))
        = .ok ⟨home ++ ([name, part] ++ [temporaryName file (Machine.freshName machine.names)]),
            some (.file machine.disk.nextIdentity content), false⟩ →
      Passes origin home kind (next (Machine.freshName machine.names) (.ok ())) after result holds) :
    Passes origin home kind (do
      Files.ensureDirectory (Path.parent (root.trimmed ++ ([name, part] ++ [file])))
      let fresh ← Host.ask .freshName
      let written ← Files.writeTemporary
        (Files.temporaryPath (root.trimmed ++ ([name, part] ++ [file])) fresh) content
      next fresh written) machine result holds := by
  refine spot.ensureDirectory_bind vacant still shows (.freshName_bind shows (still _ (.refl _))
    (.bind (spot.writeTemporary vacant still shows content) ?_))
  rintro after _ - shows' rfl
  have leads := spot.leads.update_last (temporaryName file (Machine.freshName machine.names))
    (some (.file machine.disk.nextIdentity content))
  have located := shows'.locateEntry vacant leads spot.plain_temporary (show 2 < 3 by decide)
  rw [Function.update_self] at located
  exact goesOn after _ rfl shows' leads (.update _ (unseen name part file machine.names) _) located

end

section

variable {origin : Disk} {root : Path} {home : Place} (vacant : Vacant origin root home)
  {kind : Branch → Prop} {machine : Machine} {view : Branch}
  (spot : Spot branch number name part file) (shows : Shows origin home view machine.disk)
  (leads : view.Leads [name, part])
  (isFile : ∃ identity content,
    view ([name, part] ++ [temporaryName file (Machine.freshName number)])
      = some (.file identity content))
include vacant spot shows leads isFile

/-- The temporary file is removed at the end. -/
theorem discard_bind {α : Type} {next : Unit → Action α} {result : Except Failure α}
    {holds : Branch → Prop} (isKind : kind view)
    (goesOn : ∀ after : Machine,
      Shows origin home (view.without
        ([name, part] ++ [temporaryName file (Machine.freshName number)])) after.disk →
      Passes origin home kind (next ()) after result holds) :
    Passes origin home kind (Files.discard
      (root.trimmed ++ ([name, part] ++ [temporaryName file (Machine.freshName number)])) >>= next)
      machine result holds := by
  obtain ⟨identity, content, isFile⟩ := isFile
  rw [Files.discard, bind_assoc]
  exact .tryCall_bind shows isKind (congrArg machine.disk.changing
    (shows.unlink_file vacant leads spot.plain_temporary (show 2 < 3 by decide) isFile))
    (fun _ partly => nomatch partly) (goesOn _ (shows.without (by simp)))

end

section

variable {origin : Disk} {root : Path} {home : Place} (vacant : Vacant origin root home)
  {kind : Branch → Prop} (still : ∀ other, SeenAlike other branch → kind other) {machine : Machine}
  (spot : Spot branch machine.names name part file)
  (shows : Shows origin home branch machine.disk)
include vacant still spot shows

/-- Where a file is there already, none is created, and nothing is seen to change. -/
theorem atomicCreate_taken (taken : branch ([name, part] ++ [file]) ≠ none) (content : String) :
    Passes origin home kind
      (Files.atomicCreate (root.trimmed ++ ([name, part] ++ [file])) content) machine
      (.error (.fileExists (Path.text (root.trimmed ++ ([name, part] ++ [file])))))
      (SeenAlike · branch) := by
  have unseen := unseen name part file machine.names
  refine spot.prepares_bind vacant still shows ?_
  rintro after _ rfl shows' leads alike located
  rw [Host.temporaryPath_below (by simp) spot.plain]
  have links := shows'.addLink_below vacant leads spot.plain (show 2 < 3 by decide) located rfl
  rw [Function.update_of_ne (Site.beside_ne [name, part] file machine.names),
    if_pos (Option.isSome_iff_ne_none.mpr taken)] at links
  refine .still_bind shows' (still _ alike) (congrArg after.disk.changing links) (fun _ => nofun) ?_
  refine spot.discard_bind vacant shows' leads ⟨_, _, Function.update_self ..⟩ (still _ alike)
    fun last shows'' => ?_
  have ended := (SeenAlike.without unseen).trans alike
  exact .fail _ shows'' (still _ ended) ended

variable {content : String}
  (commits : ∀ other, SeenAlike other (Function.update branch ([name, part] ++ [file])
    (some (.file machine.disk.nextIdentity content))) → kind other)
include commits

/-- Where nothing is there yet, a file comes to be seen. -/
theorem atomicCreate (free : branch ([name, part] ++ [file]) = none) :
    Passes origin home kind
      (Files.atomicCreate (root.trimmed ++ ([name, part] ++ [file])) content) machine (.ok ())
      (SeenAlike · (Function.update branch ([name, part] ++ [file])
        (some (.file machine.disk.nextIdentity content)))) := by
  have unseen := unseen name part file machine.names
  have differ := Site.beside_ne [name, part] file machine.names
  refine spot.prepares_bind vacant still shows ?_
  rintro after _ rfl shows' leads alike located
  rw [Host.temporaryPath_below (by simp) spot.plain]
  have links := shows'.addLink_below vacant leads spot.plain (show 2 < 3 by decide) located rfl
  rw [Function.update_of_ne differ, free, if_neg (by simp)] at links
  have linked := shows'.put (show [name, part] ++ [file] ≠ [] by simp) fun identity isIdentity =>
    shows'.lt_nextIdentity (Function.update_self ..) isIdentity
  have committed := alike.change ([name, part] ++ [file])
    (some (.file machine.disk.nextIdentity content))
  refine .tryCall_bind shows' (still _ alike) (congrArg after.disk.changing links)
    (fun _ partly => nomatch partly) (.still_bind linked (commits _ committed) rfl (fun _ => nofun)
      ?_)
  refine spot.discard_bind vacant linked (leads.update_last file _)
    ⟨machine.disk.nextIdentity, content, by
      rw [Function.update_of_ne differ.symm, Function.update_self]⟩ (commits _ committed)
    fun last shows'' => ?_
  have ended := (SeenAlike.without unseen).trans committed
  exact .pure () shows'' (commits _ ended) ended

/-- Where a file is there, another one comes to be seen in its place. -/
theorem atomicWrite (taken : branch ([name, part] ++ [file]) ≠ none) :
    Passes origin home kind
      (Files.atomicWrite (root.trimmed ++ ([name, part] ++ [file])) content) machine (.ok ())
      (SeenAlike · (Function.update branch ([name, part] ++ [file])
        (some (.file machine.disk.nextIdentity content)))) := by
  have unseen := unseen name part file machine.names
  have differ := Site.beside_ne [name, part] file machine.names
  obtain ⟨_, identity', content', isFile⟩ := (spot.tidy.file name part file spot.named spot.there
    spot.isPart spot.stored.seen).resolve_left taken
  have isOld : machine.disk.nextIdentity ≠ identity' :=
    (Nat.ne_of_lt (shows.lt_nextIdentity isFile rfl)).symm
  refine spot.prepares_bind vacant still shows ?_
  rintro after _ rfl shows' leads alike located
  rw [Host.temporaryPath_below (by simp) spot.plain]
  have renames := shows'.rename_file vacant leads spot.plain (show 2 < 3 by decide) located
    ((Function.update_of_ne differ _ _).trans isFile) isOld differ.symm
  have moved := shows'.relocate (show [name, part] ++ [temporaryName file
      (Machine.freshName machine.names)] ≠ [] by simp) (show [name, part] ++ [file] ≠ [] by simp)
    (Site.apart' [name, part] file machine.names) (Site.apart [name, part] file machine.names)
  have committed := (SeenAlike.relocated unseen (Function.update_self ..)
    (show ([name, part] ++ [file]).length = Disk.maxDepth from rfl)).trans
    (alike.change ([name, part] ++ [file]) (some (.file machine.disk.nextIdentity content)))
  exact .tryCall_bind shows' (still _ alike) (congrArg after.disk.changing renames)
    (fun _ partly => nomatch partly) (.still_bind moved (commits _ committed) rfl (fun _ => nofun)
      (.pure () moved (commits _ committed) committed))

end

end Spot

end DocStore
