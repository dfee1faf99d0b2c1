import DocStore.Proofs.Disk.Unmade
import DocStore.Proofs.Host.Along
/-!
# Programs that are interrupted

A program can be interrupted before its first request, after its last one, and between any two of
them; a call that takes several steps can be interrupted in between (`Interrupted`).  What is left
is a disk.

`Passes` says what an action comes to when it is not interrupted, and that a branch of some kind
lies below the root whenever it is.  There is one rule for each way to build an action:
`Passes.bind` follows one action after another, `Passes.tryCall_bind` one call.
-/

set_option autoImplicit false

/-!
## Calls that are interrupted

Most calls are done at once or not at all.  Three take several steps, so that an interruption finds
them in between (`Partly`): directories are created one after another from the outermost on, a
content is written in parts, and a tree is removed piece by piece.

Nothing but what lies in the tree is gone when its removal is interrupted (`Shows.exists_removed`),
and a root that is made in several steps is yet to be made after all of them but the last
(`Unmade.between`).
-/

namespace DocStore.Disk

/-- The disks between the creation of one directory and of the next, when a directory, given
backwards, is created with all that are missing above it. -/
def between (disk : Disk) : List String → List Disk
  | [] => []
  | name :: above =>
      match disk.makeDirectory (name :: above).reverse with
      | .error .noEntry => disk.between above ++ [(disk.ensureAll true above).2]
      | _ => []

/-- What an interrupted call leaves of a disk, besides the disk before it and the one after it. -/
inductive Partly (disk : Disk) : Call → Disk → Prop
  | makes {path : Path} {made : Disk} (isPath : checkPath path = .ok ())
      (isBetween : made ∈ disk.between path.reverse) : Partly disk (.makeDirectories path) made
  | writes (handle : Nat) (content part : String) :
      Partly disk (.write handle content) (disk.setContent handle part)
  | removes {path : Path} {target : Target} {places : List Place}
      (located : disk.locateEntry path = .ok target)
      (inside : ∀ place ∈ places, below target.place place = true) :
      Partly disk (.removeTree path) (places.foldl Disk.without disk)

/-! ## Directories -/

theorem between_reverse (disk : Disk) (front : Path) (name : String) :
    disk.between (front ++ [name]).reverse
      = match disk.makeDirectory (front ++ [name]) with
        | .error .noEntry => disk.between front.reverse ++ [(disk.ensureAll true front.reverse).2]
        | _ => [] := by
  rewrite [List.reverse_append, List.reverse_singleton, List.singleton_append, between,
    List.reverse_cons, List.reverse_reverse]
  rfl

/-- There is nothing in between where only the last directory may be missing. -/
theorem between_eq_nil {disk : Disk} {path : Path}
    (above : disk.makeDirectory path ≠ .error .noEntry) : disk.between path.reverse = [] := by
  rcases List.eq_nil_or_concat' path with rfl | ⟨front, name, rfl⟩
  · rfl
  · rw [between_reverse]
    split
    next missing => exact absurd missing above
    next => rfl

section

variable {origin : Disk} {root : Path} {home : Place} (vacant : Vacant origin root home)
  {branch : Branch} {disk : Disk} (shows : Shows origin home branch disk)
include vacant shows

/-- The root is there, so nothing is created on the way to it. -/
theorem Shows.between_root : disk.between root.reverse = [] :=
  between_eq_nil (by rw [shows.makeDirectory_root vacant]; simp)

variable {names : List String} (leads : branch.Leads names) {last : String}
include leads

/-- Nothing is created on the way to a directory that lies in another one. -/
theorem Shows.between_last (plain : ∀ name ∈ names ++ [last], Plain name)
    (few : names.length < maxDepth) :
    disk.between (root.trimmed ++ (names ++ [last])).reverse = [] := by
  refine between_eq_nil ?_
  unfold makeDirectory
  rw [shows.locateEntry vacant leads plain few]
  cases branch (names ++ [last]) <;> simp [bind, Except.bind]

/-- On the way to a directory the missing one above it is created. -/
theorem Shows.between_missing {next : String}
    (plain : ∀ name ∈ names ++ [next] ++ [last], Plain name) (few : names.length + 1 < maxDepth)
    (free : branch (names ++ [next]) = none) :
    disk.between (root.trimmed ++ (names ++ [next] ++ [last])).reverse
      = [disk.addDirectory (home ++ (names ++ [next]))] := by
  have plainNext : ∀ name ∈ names ++ [next], Plain name :=
    fun name member => plain name (List.mem_append_left _ member)
  have fewer : names.length < maxDepth := Nat.lt_of_succ_lt few
  have nowhere := shows.makeDirectory_missing vacant leads plain few free
  have above := ensureAll_new true (by simp)
    (shows.makeDirectory_free vacant leads plainNext fewer free)
  rw [← List.append_assoc] at nowhere ⊢
  rw [between_reverse, nowhere]
  simp only [shows.between_last vacant leads plainNext fewer, above, List.nil_append]

end

/-- Whatever is made in between are the first few of the missing directories. -/
theorem exists_made_of_between {origin : Disk} (sound : Sound origin) (rooted : Rooted origin)
    {front : Path} {base : Place} {identity : Nat}
    (arrives : walk origin maxLinks [] front = .ok ⟨base, some (.directory identity), false⟩)
    {first : String} {rest : List String} (nothing : origin.entry? (base ++ [first]) = none)
    (isPath : checkPath (front ++ first :: rest) = .ok ())
    (plain : ∀ name ∈ first :: rest, Plain name) {made : Disk}
    (isBetween : made ∈ origin.between (front ++ first :: rest).reverse) :
    ∃ before next after, first :: rest = before ++ next :: after ∧ before ≠ []
      ∧ made = origin.withDirectories base before := by
  induction rest using List.reverseRecOn generalizing made with
  | nil =>
      rw [between_eq_nil] at isBetween
      · cases isBetween
      · obtain ⟨links, goesOn⟩ := walk_made arrives (Extends.refl origin)
        unfold makeDirectory
        rw [Path.locateEntry_concat (plain first (by simp)) isPath, arrives]
        simp [Except.bind, bind, nothing]
  | append_singleton rest last ih =>
      have split : front ++ first :: (rest ++ [last]) = (front ++ first :: rest) ++ [last] := by simp
      have plainRest : ∀ name ∈ first :: rest, Plain name := fun name member =>
        plain name (by rw [← List.cons_append]; exact List.mem_append_left _ member)
      have isPathRest : checkPath (front ++ first :: rest) = .ok () :=
        Path.checkPath_of_append (by simp) (split ▸ isPath)
      have missing : origin.makeDirectory (front ++ first :: rest ++ [last]) = .error .noEntry := by
        unfold makeDirectory
        rw [Path.locateEntry_concat (plain last (by simp)) (split ▸ isPath),
          walk_unmade arrives nothing plainRest]
        split <;> rfl
      rw [split, between_reverse, missing] at isBetween
      rcases List.mem_append.mp isBetween with isBefore | isLast
      · obtain ⟨before, next, after, same, nonempty, isMade⟩ := ih isPathRest plainRest isBefore
        exact ⟨before, next, after ++ [last], by rw [← List.cons_append, same]; simp, nonempty,
          isMade⟩
      · refine ⟨first :: rest, last, [], by simp, by simp, ?_⟩
        rw [List.mem_singleton.mp isLast,
          ensureAll_unmade arrives nothing sound rooted plainRest isPathRest true]

/-- **A root that is not wholly made is yet to be made.** -/
theorem Unmade.between {origin : Disk} {root : Path} {home : Place}
    (unmade : Unmade origin root home) {made : Disk} (isBetween : made ∈ origin.between root.reverse) :
    Unmade made root home := by
  obtain ⟨resolved, sound, rooted, isPath, room, front, base, first, rest, identity, rfl, rfl,
    arrives, plain, nothing⟩ := unmade
  have isDirectory := entry?_of_walk arrives
  obtain ⟨before, next, after, same, nonempty, rfl⟩ :=
    exists_made_of_between sound rooted arrives nothing isPath plain isBetween
  obtain ⟨name, before, rfl⟩ := List.exists_cons_of_ne_nil nonempty
  have isRest : rest = before ++ next :: after := (List.cons.inj same).2
  obtain rfl : first = name := (List.cons.inj same).1
  subst isRest
  have extended := extends_made nothing sound rooted before
  have leads := leads_withDirectories base (first :: before) sound
  obtain ⟨identity', isMade⟩ := leads _ (List.prefix_refl _) (by simp)
  refine ⟨resolved, sound_withDirectories sound,
    rooted_withDirectories sound rooted extended isDirectory, isPath, room,
    front ++ first :: before, base ++ first :: before, next, after, identity', by simp, by simp, ?_,
    fun other member => plain other (by simp [List.mem_cons.mp member]), ?_⟩
  · obtain ⟨links, goesOn⟩ := walk_made arrives extended
    have through := walk_directories links
      (fun other member => plain other (by
        rw [← List.cons_append]
        exact List.mem_append_left _ member)) leads []
    rw [List.append_nil] at through
    rw [goesOn, through, walk_eq, walkWith, isMade]
  · rcases entry?_withDirectories base (first :: before) sound
        (base ++ first :: before ++ [next]) with ⟨front', _, isFront, _, isPlace, _⟩ | ⟨_, unchanged⟩
    · have size := isFront.length_le
      have sizes := congrArg List.length isPlace
      simp at size sizes
      omega
    · have none := rooted.nothing_below nothing (before ++ [next])
      rw [unchanged]
      simpa using none

/-! ## Removals -/

/-- Nothing is gone but what lies at or below the place that is being removed. -/
theorem Shows.exists_removed {origin : Disk} {home : Place} {branch : Branch} {disk : Disk}
    (shows : Shows origin home branch disk) {names : List String} (nonempty : names ≠ [])
    {places : List Place} (inside : ∀ place ∈ places, below (home ++ names) place = true) :
    ∃ left, Shows origin home left (places.foldl Disk.without disk)
      ∧ ∀ other, below names other = false → left other = branch other := by
  induction places generalizing branch disk with
  | nil => exact ⟨branch, shows, fun _ _ => rfl⟩
  | cons place places ih =>
      obtain ⟨rest, rfl⟩ := below_iff.mp (inside place (by simp))
      rw [List.append_assoc] at *
      obtain ⟨left, shows', same⟩ := ih (shows.without (show names ++ rest ≠ [] by simp [nonempty]))
        fun place member => inside place (List.mem_cons_of_mem _ member)
      refine ⟨left, shows', fun other outside => (same other outside).trans (if_neg fun isBelow => ?_)⟩
      obtain ⟨further, rfl⟩ := below_iff.mp isBelow
      rw [List.append_assoc, below_append] at outside
      cases outside

end DocStore.Disk

/-!
## Programs
-/

namespace DocStore.Host

open Disk (Branch Partly Path Place Shows Vacant)

/-- What a program that is interrupted leaves of the disk of a machine. -/
inductive Interrupted {α : Type} : Program interface α → Machine → Disk → Prop
  | stop (program : Program interface α) (machine : Machine) :
      Interrupted program machine machine.disk
  | midst {call : Disk.Call} {next : call.Answer → Program interface α} {machine : Machine}
      {disk : Disk} (partly : Partly machine.disk call disk) :
      Interrupted (.ask (.disk call) next) machine disk
  | later {request : Request} {next : request.Answer → Program interface α} {machine : Machine}
      {disk : Disk} (goesOn : Interrupted (next (Machine.answer request machine).1)
        (Machine.answer request machine).2 disk) :
      Interrupted (.ask request next) machine disk

namespace Interrupted

variable {α β : Type} {program : Program interface α} {machine : Machine} {disk : Disk}

/-- One program after another is interrupted in the first, or in the second after all of the first.
-/
theorem bind_inv {next : α → Program interface β}
    (interrupted : Interrupted (program.bind next) machine disk) :
    Interrupted program machine disk
      ∨ Interrupted (next (machine.run program).1) (machine.run program).2 disk := by
  induction program generalizing machine with
  | done result => exact .inr interrupted
  | ask request rest ih =>
      cases interrupted with
      | stop => exact .inl (.stop _ _)
      | midst partly => exact .inl (.midst partly)
      | later goesOn => exact (ih _ goesOn).imp .later id

/-- One action after another that succeeds is interrupted in the first, or in the second after all
of the first. -/
theorem bind_inv_ok {first : Action α} {next : α → Action β} {value : α} {after : Machine}
    (run : machine.eval first = (.ok value, after))
    (interrupted : Interrupted (first >>= next).toProgram machine disk) :
    Interrupted first.toProgram machine disk ∨ Interrupted (next value).toProgram after disk := by
  have parts : Interrupted (first.toProgram.bind (ExceptT.bindCont next)) machine disk := interrupted
  have ran : machine.run first.toProgram = (.ok value, after) := run
  refine parts.bind_inv.imp id fun inNext => ?_
  rw [ran] at inNext
  exact inNext

/-- What is interrupted at its very end is not interrupted. -/
theorem completed (program : Program interface α) (machine : Machine) :
    Interrupted program machine (machine.run program).2.disk := by
  induction program generalizing machine with
  | done result => exact .stop _ _
  | ask request next ih => exact .later (ih _ _)

theorem done_inv {result : α} (interrupted : Interrupted (.done result) machine disk) :
    disk = machine.disk := by
  cases interrupted
  rfl

/-- What only looks leaves the disk as it is wherever it is interrupted. -/
theorem of_looks (asks : program.Asks Request.Looks)
    (interrupted : Interrupted program machine disk) : disk = machine.disk := by
  induction interrupted with
  | stop => rfl
  | midst partly =>
      cases asks with
      | ask looks _ => cases partly <;> exact looks.elim
  | @later request next machine disk _ ih =>
      cases asks with
      | ask looks goesOn => rw [ih (goesOn _), looks.answer_snd]

end Interrupted

/-! ## Branches on the way -/

/-- A branch of some kind lies below a root. -/
def ShowsSome (origin : Disk) (home : Place) (kind : Branch → Prop) (disk : Disk) : Prop :=
  ∃ branch, Shows origin home branch disk ∧ kind branch

/-- An action comes to a result and leaves a branch of one kind, and wherever it is interrupted a
branch of another kind lies below the root. -/
structure Passes (origin : Disk) (home : Place) (kind : Branch → Prop) {α : Type} (action : Action α)
    (machine : Machine) (result : Except Failure α) (holds : Branch → Prop) : Prop where
  yields : Yields origin home action machine result holds
  through : ∀ disk, Interrupted action.toProgram machine disk → ShowsSome origin home kind disk

namespace Passes

variable {α β : Type} {origin : Disk} {home : Place} {kind kind' : Branch → Prop} {machine : Machine}
  {holds holds' : Branch → Prop} {branch : Branch}

theorem mono {action : Action α} {result : Except Failure α}
    (passes : Passes origin home kind action machine result holds)
    (implies : ∀ branch, kind branch → kind' branch)
    (implies' : ∀ branch, holds branch → holds' branch) :
    Passes origin home kind' action machine result holds' where
  yields := passes.yields.mono implies'
  through disk interrupted := by
    obtain ⟨branch, shows, isKind⟩ := passes.through disk interrupted
    exact ⟨branch, shows, implies branch isKind⟩

/-- What an action leaves is of the kind that it passes through. -/
theorem ends {action : Action α} {result : Except Failure α}
    (passes : Passes origin home kind action machine result holds) :
    ShowsSome origin home kind (machine.eval action).2.disk :=
  passes.through _ (.completed action.toProgram machine)

/-- What only looks passes through nothing but the branch that it looks at. -/
theorem looks {action : Action α} {result : Except Failure α}
    (asks : action.toProgram.Asks Request.Looks) (comes : (machine.eval action).1 = result)
    (shows : Shows origin home branch machine.disk) (isKind : kind branch) :
    Passes origin home kind action machine result (Eq branch) where
  yields := by
    have still : (machine.eval action).2 = machine :=
      asks.run_same fun request looks => looks.answer_snd machine
    exact ⟨machine, branch, Prod.ext comes still, .refl machine, shows, rfl⟩
  through disk interrupted := by
    rw [interrupted.of_looks asks]
    exact ⟨branch, shows, isKind⟩

theorem pure (value : α) (shows : Shows origin home branch machine.disk) (isKind : kind branch)
    (held : holds branch) :
    Passes origin home kind (Pure.pure value) machine (.ok value) holds :=
  ⟨.pure value shows held, fun _ interrupted => interrupted.done_inv ▸ ⟨branch, shows, isKind⟩⟩

theorem fail (failure : Failure) (shows : Shows origin home branch machine.disk)
    (isKind : kind branch) (held : holds branch) :
    Passes origin home kind (Attempt.fail failure : Action α) machine (.error failure) holds :=
  ⟨⟨machine, branch, rfl, .refl machine, shows, held⟩,
    fun _ interrupted => interrupted.done_inv ▸ ⟨branch, shows, isKind⟩⟩

/-- One action after another that succeeds. -/
theorem bind {first : Action α} {next : α → Action β} {value : α} {result : Except Failure β}
    (passes : Passes origin home kind first machine (.ok value) holds)
    (goesOn : ∀ (after : Machine) (branch : Branch), machine.eval first = (.ok value, after) →
      Shows origin home branch after.disk → holds branch →
      Passes origin home kind (next value) after result holds') :
    Passes origin home kind (first >>= next) machine result holds' := by
  obtain ⟨⟨middle, branch, run, same, shows, held⟩, through⟩ := passes
  have goes := goesOn middle branch run shows held
  exact ⟨.step_bind run same goes.yields, fun disk interrupted =>
    (interrupted.bind_inv_ok run).elim (through disk) (goes.through disk)⟩

/-- One action after another that succeeds and leaves machine and branch as they are. -/
theorem looks_bind {first : Action α} {next : α → Action β} {value : α} {result : Except Failure β}
    (asks : first.toProgram.Asks Request.Looks) (comes : (machine.eval first).1 = .ok value)
    (shows : Shows origin home branch machine.disk) (isKind : kind branch)
    (goesOn : Passes origin home kind (next value) machine result holds) :
    Passes origin home kind (first >>= next) machine result holds := by
  refine (looks asks comes shows isKind).bind fun after _ run _ _ => ?_
  have still : (machine.eval first).2 = machine :=
    asks.run_same fun request looks => looks.answer_snd machine
  obtain rfl : machine = after := by rw [← still, run]
  exact goesOn

/-- An action that fails ends what would follow it. -/
theorem bind_error {first : Action α} {next : α → Action β} {failure : Failure}
    (passes : Passes origin home kind first machine (.error failure) holds) :
    Passes origin home kind (first >>= next) machine (.error failure) holds := by
  have ends := passes.ends
  obtain ⟨⟨middle, branch, run, same, shows, held⟩, through⟩ := passes
  refine ⟨⟨middle, branch, Attempt.eval_bind_error run, same, shows, held⟩, fun disk interrupted => ?_⟩
  have parts : Interrupted (first.toProgram.bind (ExceptT.bindCont next)) machine disk := interrupted
  rcases parts.bind_inv with inFirst | inNext
  · exact through disk inFirst
  · have ran : machine.run first.toProgram = (.error failure, middle) := run
    rw [ran] at inNext
    rw [run] at ends
    exact inNext.done_inv ▸ ends

/-- A call goes on with its answer. -/
theorem tryCall_bind {call : Disk.Call} {next : call.Answer → Action β} {answer : call.Answer}
    {disk : Disk} {result : Except Failure β} (shows : Shows origin home branch machine.disk)
    (isKind : kind branch) (answers : machine.disk.answer call = (answer, disk))
    (midst : ∀ left, Partly machine.disk call left → ShowsSome origin home kind left)
    (goesOn : Passes origin home kind (next answer) { machine with disk } result holds) :
    Passes origin home kind (Host.tryCall call >>= next) machine result holds := by
  refine ⟨.tryCall_bind answers goesOn.yields, fun left interrupted => ?_⟩
  have parts : Interrupted (.ask (.disk call) fun answer => (next answer).toProgram) machine left :=
    interrupted
  cases parts with
  | stop => exact ⟨branch, shows, isKind⟩
  | midst partly => exact midst left partly
  | later inNext =>
      have asked : Machine.answer (.disk call) machine = (answer, { machine with disk }) := by
        rw [Machine.answer, answers]
      rw [asked] at inNext
      exact goesOn.through left inNext

/-- A call that has to succeed, and does. -/
theorem callAs {call : Disk.Call} {failure : Disk.Errno → Failure} {value : call.Result}
    {disk : Disk} (shows : Shows origin home branch machine.disk) (isKind : kind branch)
    (answers : machine.disk.answer call = (.ok value, disk))
    (midst : ∀ left, Partly machine.disk call left → ShowsSome origin home kind left)
    {branch' : Branch} (shows' : Shows origin home branch' disk) (isKind' : kind branch')
    (held : holds branch') :
    Passes origin home kind (Host.callAs call failure) machine (.ok value) holds := by
  refine ⟨⟨{ machine with disk }, branch', ?_, ⟨rfl, rfl, rfl⟩, shows', held⟩,
    fun left interrupted => ?_⟩
  · rw [Machine.eval_callAs, answers]
    rfl
  · have parts : Interrupted (.ask (.disk call) fun answer => .done (Except.mapError failure answer))
        machine left := interrupted
    cases parts with
    | stop => exact ⟨branch, shows, isKind⟩
    | midst partly => exact midst left partly
    | later ended =>
        have asked : Machine.answer (.disk call) machine = (.ok value, { machine with disk }) := by
          rw [Machine.answer, answers]
        rw [ended.done_inv, asked]
        exact ⟨branch', shows', isKind'⟩

/-- A fresh name is drawn. -/
theorem freshName_bind {next : String → Action β} {result : Except Failure β}
    (shows : Shows origin home branch machine.disk) (isKind : kind branch)
    (goesOn : Passes origin home kind (next (Machine.freshName machine.names))
      { machine with names := machine.names + 1 } result holds) :
    Passes origin home kind (Host.ask .freshName >>= next) machine result holds := by
  refine ⟨.ask_bind rfl ⟨rfl, rfl, rfl⟩ goesOn.yields, fun left interrupted => ?_⟩
  have parts : Interrupted (.ask .freshName fun name => (next name).toProgram) machine left :=
    interrupted
  cases parts with
  | stop => exact ⟨branch, shows, isKind⟩
  | later inNext => exact goesOn.through left inNext

theorem outcome {action : Action α} {result : Except Failure α}
    (passes : Passes origin home kind action machine result holds) :
    Passes origin home kind action.outcome machine (.ok result) holds := by
  have ends := passes.ends
  obtain ⟨⟨after, branch, run, same, shows, held⟩, through⟩ := passes
  refine ⟨⟨after, branch, ?_, same, shows, held⟩, fun disk interrupted => ?_⟩
  · exact (Attempt.eval_outcome Machine.answer action machine).trans (by
      rw [show Attempt.eval Machine.answer action machine = _ from run])
  · have parts : Interrupted (action.toProgram.bind fun result =>
        .done (Except.ok (ε := Failure) result)) machine disk := interrupted
    rcases parts.bind_inv with inAction | ended
    · exact through disk inAction
    · exact ended.done_inv ▸ ends

theorem andFinally {action : Action α} {last : Action Unit} {result : Except Failure α}
    (passes : Passes origin home kind action machine result holds)
    (goesOn : ∀ (after : Machine) (branch : Branch), machine.eval action = (result, after) →
      Shows origin home branch after.disk → holds branch →
      Passes origin home kind last after (.ok ()) holds') :
    Passes origin home kind (action.andFinally last) machine result holds' := by
  obtain ⟨⟨after, branch, run, same, shows, held⟩, through⟩ := passes
  have goes := goesOn after branch run shows held
  have ends := goes.ends
  obtain ⟨⟨after', branch', run', same', shows', held'⟩, through'⟩ := goes
  have ran : machine.run action.toProgram = (result, after) := run
  have ran' : after.run last.toProgram = (.ok (), after') := run'
  refine ⟨⟨after', branch', ?_, same.trans same', shows', held'⟩, fun disk interrupted => ?_⟩
  · have ended : Attempt.eval Machine.answer last (Attempt.eval Machine.answer action machine).2
        = (.ok (), after') := by
      rw [show Attempt.eval Machine.answer action machine = _ from run]
      exact run'
    refine (Attempt.eval_andFinally_ok (I := interface) Machine.answer ended).trans ?_
    rw [show Attempt.eval Machine.answer action machine = _ from run]
  · have parts : Interrupted (action.toProgram.bind fun _ => last.toProgram.bind _) machine disk :=
      interrupted
    rcases parts.bind_inv with inAction | inLast
    · exact through disk inAction
    · rw [ran] at inLast
      rcases inLast.bind_inv with inLast | ended
      · exact through' disk inLast
      · rw [ran'] at ended
        rw [show after.eval last = _ from run'] at ends
        exact ended.done_inv ▸ ends

end Passes

end DocStore.Host
