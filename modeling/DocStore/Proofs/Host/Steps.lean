import DocStore.Host.Pool
import DocStore.Proofs.Disk.Entries
import DocStore.Proofs.Host.Run
/-!
# Steps of a pool

Whatever the order in which the programs of a pool make their steps, one step is one of two things
(`Pool.Moves`): nothing happens, when a program has ended or waits before a section, or one program
asks its next request of the machine and goes on with the answer.  In which section a program is
makes no difference beyond that.  `Pool.step_moves` says so of every step.
-/

set_option autoImplicit false

namespace DocStore.Host

/-- Fresh names are made in the order of their numbers. -/
theorem Machine.names_le_answer (request : Request) (machine : Machine) :
    machine.names ≤ (Machine.answer request machine).2.names := by
  cases request with
  | freshName => exact Nat.le_succ _
  | readLine =>
      unfold answer
      dsimp only
      split <;> exact Nat.le_refl _
  | _ => exact Nat.le_refl _

/-- No request takes identities back. -/
theorem Machine.nextIdentity_le_answer (request : Request) (machine : Machine) :
    machine.disk.nextIdentity ≤ (Machine.answer request machine).2.disk.nextIdentity := by
  cases request with
  | disk call => exact machine.disk.nextIdentity_le_answer call
  | readLine =>
      unfold answer
      dsimp only
      split <;> exact Nat.le_refl _
  | _ => exact Nat.le_refl _

section

variable {machine : Machine} {path : Disk.Path}

theorem Machine.answer_openNew_error {errno : Disk.Errno}
    (refuses : machine.disk.openNew path = .error errno) :
    Machine.answer (.disk (.openNew path)) machine = (.error errno, machine) := by
  show ((machine.disk.opening (machine.disk.openNew path)).1,
    { machine with disk := (machine.disk.opening (machine.disk.openNew path)).2 }) = _
  rw [refuses]
  rfl

theorem Machine.answer_openNew_ok {handle : Nat} {disk : Disk}
    (opens : machine.disk.openNew path = .ok (handle, disk)) :
    Machine.answer (.disk (.openNew path)) machine = (.ok handle, { machine with disk }) := by
  show ((machine.disk.opening (machine.disk.openNew path)).1,
    { machine with disk := (machine.disk.opening (machine.disk.openNew path)).2 }) = _
  rw [opens]
  rfl

theorem Machine.answer_unlink_ok {disk : Disk} (removes : machine.disk.unlink path = .ok disk) :
    Machine.answer (.disk (.unlink path)) machine = (.ok (), { machine with disk }) := by
  show ((machine.disk.changing (machine.disk.unlink path)).1,
    { machine with disk := (machine.disk.changing (machine.disk.unlink path)).2 }) = _
  rw [removes]
  rfl

end

/-- Whether a request creates the file of a path on a machine: it opens it as a new file, and the
machine lets it. -/
def Request.creates (path : Disk.Path) (machine : Machine) : Request → Bool
  | .disk (.openNew asked) => asked = path ∧ (machine.disk.openNew asked).isOk
  | _ => false

namespace Pool

variable {α : Type}

/-- The program at a place, as far as it has come. -/
def program? (pool : Pool α) (place : Nat) : Option (Program interface α) :=
  pool.threads[place]?.map Thread.program

/-- The pool after the programs at some places have made a step, one after another. -/
def after (pool : Pool α) : List Nat → Pool α
  | [] => pool
  | place :: schedule => (pool.step place).after schedule

/-- Whether the next step of the program at a place creates the file of a path. -/
def creates (pool : Pool α) (place : Nat) (path : Disk.Path) : Bool :=
  match pool.program? place with
  | some (.ask request _) => request.creates path pool.machine
  | _ => false

/-- The places of the programs that create a file of theirs, each time that one does so, in the
order in which that happens while they make their steps. -/
def creators (path : Nat → Disk.Path) : Pool α → List Nat → List Nat
  | _, [] => []
  | pool, place :: schedule =>
      (if pool.creates place (path place) then [place] else [])
        ++ creators path (pool.step place) schedule

/-- What a step of the program at a place can do to a pool. -/
inductive Moves (pool : Pool α) (place : Nat) (pool' : Pool α) : Prop
  | stays (waits : ∀ request next, pool.program? place = some (.ask request next) →
        ∃ key, request = .enter key)
      (machine : pool'.machine = pool.machine)
      (programs : ∀ other, pool'.program? other = pool.program? other)
  | asks {request : Request} {next : request.Answer → Program interface α}
      (isNext : pool.program? place = some (.ask request next))
      (machine : pool'.machine = (Machine.answer request pool.machine).2)
      (programs : ∀ other, pool'.program? other
        = if other = place then some (next (Machine.answer request pool.machine).1)
          else pool.program? other)

section

variable {pool : Pool α} {place : Nat}

theorem program?_start (programs : List (Program interface α)) (machine : Machine) (place : Nat) :
    (start programs machine).program? place = programs[place]? := by
  rw [program?, start, List.getElem?_map, Option.map_map]
  exact Option.map_id'

theorem program?_setThread {old : Thread α} (there : pool.threads[place]? = some old)
    (thread : Thread α) (sections : Mutex Section Nat) (machine : Machine) (other : Nat) :
    program? { pool.setThread place thread with sections, machine } other
      = if other = place then some thread.program else pool.program? other := by
  have inside : place < pool.threads.length := (List.getElem?_eq_some_iff.mp there).1
  show (pool.threads.set place thread)[other]?.map Thread.program = _
  by_cases same : other = place
  · subst same
    rw [List.getElem?_set_self inside, if_pos rfl, Option.map_some]
  · rw [List.getElem?_set_ne (Ne.symm same), if_neg same, program?]

/-- A request is answered by the machine. -/
theorem moves_of_answer {request : Request} {next : request.Answer → Program interface α}
    {queued : Bool} (there : pool.threads[place]? = some ⟨.ask request next, queued⟩)
    {sections : Mutex Section Nat} :
    Moves pool place
      { pool.setThread place ⟨next (Machine.answer request pool.machine).1, false⟩ with
        sections, machine := (Machine.answer request pool.machine).2 } :=
  .asks (by rw [program?, there, Option.map_some]) rfl
    (program?_setThread there ⟨next (Machine.answer request pool.machine).1, false⟩ _ _)

/-- **A step of a pool** does nothing, or lets one program ask its next request. -/
theorem step_moves (pool : Pool α) (place : Nat) : Moves pool place (pool.step place) := by
  unfold step
  split
  next request next queued there =>
    have isNext : pool.program? place = some (.ask request next) := by
      rw [program?, there, Option.map_some]
    cases request with
    | enter key =>
        unfold ask
        dsimp only
        generalize (if queued = true then pool.sections else pool.sections.enter key place) = sections
        split
        · exact moves_of_answer there
        · refine .stays (fun request next' same => ?_) rfl fun other => ?_
          · rw [isNext] at same
            cases same
            exact ⟨key, rfl⟩
          · refine (program?_setThread there _ _ _ other).trans ?_
            split
            next same => rw [same, isNext]
            next => rfl
    | leave key => exact moves_of_answer there
    | _ => exact moves_of_answer there
  next ended =>
    refine .stays (fun request next isNext => ?_) rfl fun _ => rfl
    obtain ⟨thread, there, isProgram⟩ := Option.map_eq_some_iff.mp isNext
    exact absurd (show pool.threads[place]? = some ⟨.ask request next, thread.queued⟩ by
      rw [there, ← isProgram]) (ended request next thread.queued)

/-- No step takes fresh names back. -/
theorem names_le_step (pool : Pool α) (place : Nat) :
    pool.machine.names ≤ (pool.step place).machine.names := by
  cases pool.step_moves place with
  | stays _ machine => exact Nat.le_of_eq (congrArg Machine.names machine.symm)
  | asks _ machine => exact machine ▸ Machine.names_le_answer _ _

/-- No step takes identities back. -/
theorem nextIdentity_le_step (pool : Pool α) (place : Nat) :
    pool.machine.disk.nextIdentity ≤ (pool.step place).machine.disk.nextIdentity := by
  cases pool.step_moves place with
  | stays _ machine => exact Nat.le_of_eq (congrArg (·.disk.nextIdentity) machine.symm)
  | asks _ machine => exact machine ▸ Machine.nextIdentity_le_answer _ _

theorem names_le_after (pool : Pool α) (schedule : List Nat) :
    pool.machine.names ≤ (pool.after schedule).machine.names := by
  induction schedule generalizing pool with
  | nil => exact Nat.le_refl _
  | cons place schedule ih => exact Nat.le_trans (pool.names_le_step place) (ih _)

/-- Steps take no program away. -/
theorem isSome_program?_step (pool : Pool α) (place other : Nat) :
    ((pool.step place).program? other).isSome = (pool.program? other).isSome := by
  cases pool.step_moves place with
  | stays _ _ programs => rw [programs]
  | asks isNext _ programs =>
      rw [programs]
      split
      next same => rw [same, isNext, Option.isSome_some, Option.isSome_some]
      next => rfl

theorem isSome_program?_after (pool : Pool α) (schedule : List Nat) (other : Nat) :
    ((pool.after schedule).program? other).isSome = (pool.program? other).isSome := by
  induction schedule generalizing pool with
  | nil => rfl
  | cons place schedule ih => exact (ih _).trans (pool.isSome_program?_step place other)

/-- When all programs have ended, each has its result. -/
theorem program?_of_results {results : List α} (ended : pool.results? = some results)
    (place : Nat) : pool.program? place = results[place]?.map Program.done := by
  obtain ⟨threads, sections, machine⟩ := pool
  suffices each : threads.map Thread.program = results.map Program.done by
    rw [program?, ← List.getElem?_map, ← List.getElem?_map, each]
  induction threads generalizing results with
  | nil =>
      cases ended
      rfl
  | cons thread rest ih =>
      rw [results?, List.mapM_cons] at ended
      obtain ⟨first, isFirst, ended⟩ := Option.bind_eq_some_iff.mp ended
      obtain ⟨others, areOthers, ended⟩ := Option.bind_eq_some_iff.mp ended
      cases ended
      split at isFirst
      next isDone =>
        cases isFirst
        rw [List.map_cons, List.map_cons, isDone, ih areOthers]
      next => cases isFirst

end

end Pool

end DocStore.Host
