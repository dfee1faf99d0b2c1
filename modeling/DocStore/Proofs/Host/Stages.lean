import DocStore.Proofs.Asking
import DocStore.Proofs.Host.Queue
/-!
# Programs at stages

A program that asks one thing after another is told by the stage that it has come to: each stage
stands for what is left of the program (`Pool.At`).  When every request of every stage leads to
another stage, and what is known of all stages and of the machine together is kept by it
(`Proceeds`), then it is kept by every step of a pool (`At.step`), and so whatever the order in
which the programs make their steps (`At.after`).

`Pool.exists_done_of_count` says how many turns are enough for a program to end, and
`Pool.exists_results` the same of all programs of a pool.
-/

set_option autoImplicit false

namespace DocStore

namespace Host

variable {α σ : Type}

/-- A stage goes on to another one: it asks a request, the machine answers, and what is left then is
what the other stage stands for. -/
def Proceeds (program : σ → Program interface α) (stage : σ) (machine : Machine) (stage' : σ)
    (machine' : Machine) : Prop :=
  ∃ (request : Request) (next : request.Answer → Program interface α) (value : request.Answer),
    request.Free ∧ program stage = .ask request next
      ∧ Machine.answer request machine = (value, machine') ∧ next value = program stage'

/-- A program that goes on has not ended. -/
theorem Proceeds.not_done {program : σ → Program interface α} {stage stage' : σ}
    {machine machine' : Machine} (proceeds : Proceeds program stage machine stage' machine')
    (result : α) : program stage ≠ .done result := by
  obtain ⟨request, next, _, _, asks, _⟩ := proceeds
  rw [asks]
  intro isDone
  cases isDone

/-- An action asks a request first, and goes on as another action when the answer is a value. -/
def AsksFirst (action : Action α) (request : Request) (value : request.Answer)
    (next : Action α) : Prop :=
  ∃ rest, action.toProgram = .ask request rest ∧ rest value = next.toProgram

namespace AsksFirst

variable {β : Type} {action next : Action α} {request : Request} {value : request.Answer}

theorem ask (request : Request) (next : request.Answer → Action α) (value : request.Answer) :
    AsksFirst (Host.ask request >>= next) request value (next value) := ⟨_, rfl, rfl⟩

/-- What follows an action is what follows the rest of it. -/
theorem bind (asks : AsksFirst action request value next) (more : α → Action β) :
    AsksFirst (action >>= more) request value (next >>= more) := by
  obtain ⟨rest, asks, goesOn⟩ := asks
  exact ⟨fun answer => (rest answer).bind _, congrArg (Program.bind · _) asks,
    congrArg (Program.bind · _) goesOn⟩

theorem andFinally (asks : AsksFirst action request value next) (last : Action Unit) :
    AsksFirst (action.andFinally last) request value (next.andFinally last) := by
  obtain ⟨rest, asks, goesOn⟩ := asks
  exact ⟨fun answer => (rest answer).bind _, congrArg (Program.bind · _) asks,
    congrArg (Program.bind · _) goesOn⟩

theorem makeDirectories (path : Disk.Path) (failure : Disk.Obstacle → Failure)
    (next : Unit → Action α) :
    AsksFirst (Host.makeDirectories path failure >>= next) (.disk (.makeDirectories path))
      (.ok none) (next ()) := ⟨_, rfl, rfl⟩

/-- An action that asks a request first, as a stage that goes on to another one. -/
theorem proceeds {action : σ → Action α} {stage stage' : σ} {machine machine' : Machine}
    (asks : AsksFirst (action stage) request value (action stage'))
    (free : request.Free) (answers : Machine.answer request machine = (value, machine')) :
    Proceeds (fun stage => (action stage).toProgram) stage machine stage' machine' := by
  obtain ⟨rest, asks, goesOn⟩ := asks
  exact ⟨request, rest, value, free, asks, answers, goesOn⟩

end AsksFirst

namespace Pool

/-- The programs of a pool have come to some stages. -/
def At (program : σ → Program interface α) (stages : Nat → Option σ) (pool : Pool α) : Prop :=
  ∀ place, pool.program? place = (stages place).map program

namespace At

variable {program : σ → Program interface α} {stages : Nat → Option σ} {pool : Pool α} {place : Nat}

theorem start (stages : List σ) (machine : Machine) :
    At program (stages[·]?) (Pool.start (stages.map program) machine) := by
  intro place
  rw [program?_start, List.getElem?_map]

/-- A program that has ended has come to a stage at which nothing is left to do. -/
theorem exists_stage (stands : At program stages pool) {result : α}
    (isDone : pool.program? place = some (.done result)) :
    ∃ stage, stages place = some stage ∧ program stage = .done result := by
  rw [stands place] at isDone
  exact Option.map_eq_some_iff.mp isDone

/-- When all programs have ended nothing is left to do at any stage. -/
theorem exists_result (stands : At program stages pool) {results : List α}
    (areResults : pool.results? = some results) {stage : σ} (isStage : stages place = some stage) :
    ∃ result, program stage = .done result ∧ results[place]? = some result := by
  have isProgram := stands place
  rw [program?_of_results areResults, isStage, Option.map_some] at isProgram
  obtain ⟨result, isResult, isDone⟩ := Option.map_eq_some_iff.mp isProgram
  exact ⟨result, isDone.symm, isResult⟩

/-- Nothing happens at a place where there is no program, or one that has ended. -/
theorem step_ended (stands : At program stages pool) (place : Nat)
    (ended : ∀ stage, stages place = some stage → ∃ result, program stage = .done result) :
    (pool.step place).machine = pool.machine ∧ At program stages (pool.step place) := by
  cases pool.step_moves place with
  | stays _ machine programs => exact ⟨machine, fun other => (programs other).trans (stands other)⟩
  | asks isNext _ _ =>
      rw [stands place] at isNext
      obtain ⟨stage, isStage, isProgram⟩ := Option.map_eq_some_iff.mp isNext
      obtain ⟨result, isDone⟩ := ended stage isStage
      rw [isDone] at isProgram
      cases isProgram

/-- The program at a place goes on to another stage. -/
theorem step_proceeds (stands : At program stages pool) {stage stage' : σ}
    (isStage : stages place = some stage) {machine' : Machine}
    (proceeds : Proceeds program stage pool.machine stage' machine') :
    (pool.step place).machine = machine'
      ∧ At program (Function.update stages place (some stage')) (pool.step place) := by
  obtain ⟨request, next, value, free, asks, answers, goesOn⟩ := proceeds
  have there : pool.program? place = some (.ask request next) := by
    rw [stands place, isStage, Option.map_some, asks]
  cases pool.step_moves place with
  | stays waits _ _ =>
      obtain ⟨key, rfl⟩ := waits request next there
      exact free.elim
  | asks isNext machine programs =>
      rw [there] at isNext
      cases isNext
      refine ⟨by rw [machine, answers], fun other => ?_⟩
      rw [programs, answers, goesOn]
      by_cases same : other = place
      · rw [if_pos same, same, Function.update_self, Option.map_some]
      · rw [if_neg same, Function.update_of_ne same, stands other]

variable (keeps : (Nat → Option σ) → Machine → Prop) {bound : Nat}
  (goes : ∀ stages machine place stage, keeps stages machine → stages place = some stage →
    (∃ result, program stage = .done result)
      ∨ ∃ stage' machine', Proceeds program stage machine stage' machine'
        ∧ (machine'.names ≤ bound → keeps (Function.update stages place (some stage')) machine'))
include goes

/-- **A step of a pool** keeps what every request of every stage keeps. -/
theorem step (stands : At program stages pool) (kept : keeps stages pool.machine)
    (few : (pool.step place).machine.names ≤ bound) :
    ∃ stages', At program stages' (pool.step place) ∧ keeps stages' (pool.step place).machine := by
  cases isStage : stages place with
  | none =>
      obtain ⟨machine, stands'⟩ := stands.step_ended place (by simp [isStage])
      exact ⟨stages, stands', machine ▸ kept⟩
  | some stage =>
      rcases goes stages pool.machine place stage kept isStage with
        ended | ⟨stage', _, goesOn, keep⟩
      · obtain ⟨machine, stands'⟩ := stands.step_ended place fun other isOther => by
          rw [isStage] at isOther
          cases isOther
          exact ended
        exact ⟨stages, stands', machine ▸ kept⟩
      · obtain ⟨rfl, stands'⟩ := stands.step_proceeds isStage goesOn
        exact ⟨_, stands', keep few⟩

/-- **Any steps of a pool**, in any order, keep what every request of every stage keeps. -/
theorem after (stands : At program stages pool) (kept : keeps stages pool.machine)
    {schedule : List Nat} (few : (pool.after schedule).machine.names ≤ bound) :
    ∃ stages', At program stages' (pool.after schedule)
      ∧ keeps stages' (pool.after schedule).machine := by
  induction schedule generalizing pool stages with
  | nil => exact ⟨stages, stands, kept⟩
  | cons place schedule ih =>
      have few' := Nat.le_trans (names_le_after (pool.step place) schedule) few
      obtain ⟨stages', stands', kept'⟩ := step keeps goes stands kept few'
      exact ih stands' kept' few

end At

/-! ## When programs end -/

section

variable {pool : Pool α} {place : Nat} {program : Program interface α}

theorem program?_step_done {result : α} (ended : pool.program? place = some (.done result))
    (other : Nat) : (pool.step other).program? place = some (.done result) := by
  cases pool.step_moves other with
  | stays _ _ programs => rw [programs, ended]
  | asks isNext _ programs =>
      rw [programs]
      split
      next same =>
        rw [← same, ended] at isNext
        cases isNext
      next => exact ended

theorem after_append (pool : Pool α) (earlier later : List Nat) :
    pool.after (earlier ++ later) = (pool.after earlier).after later := by
  induction earlier generalizing pool with
  | nil => rfl
  | cons place earlier ih => exact ih (pool.step place)

/-- What has ended stays so. -/
theorem program?_after_done {result : α} (ended : pool.program? place = some (.done result))
    (schedule : List Nat) : (pool.after schedule).program? place = some (.done result) := by
  induction schedule generalizing pool with
  | nil => exact ended
  | cons other schedule ih => exact ih (program?_step_done ended other)

/-- **A program ends** when it has had as many turns as it asks requests at most. -/
theorem exists_done_of_count {bound : Nat} (asks : program.AsksAtMost Request.Free bound)
    (there : pool.program? place = some program)
    {schedule : List Nat} (turns : bound ≤ schedule.count place) :
    ∃ result, (pool.after schedule).program? place = some (.done result) := by
  induction schedule generalizing pool program bound with
  | nil =>
      cases asks with
      | done bound result => exact ⟨result, there⟩
      | ask _ _ => simp at turns
  | cons other schedule ih =>
      cases asks with
      | done bound result => exact ⟨result, program?_after_done there (other :: schedule)⟩
      | @ask bound request next free goesOn =>
          by_cases isTurn : other = place
          · subst isTurn
            rw [List.count_cons_self] at turns
            have turns' := Nat.le_of_succ_le_succ turns
            cases pool.step_moves other with
            | stays waits =>
                obtain ⟨key, rfl⟩ := waits request next there
                exact free.elim
            | asks isNext _ programs =>
                rw [there] at isNext
                cases isNext
                exact ih (goesOn _) ((programs other).trans (if_pos rfl)) turns'
          · rw [List.count_cons_of_ne isTurn] at turns
            refine ih (.ask free goesOn) ?_ turns
            cases pool.step_moves other with
            | stays _ _ programs => rw [programs, there]
            | asks _ _ programs => rw [programs, if_neg (Ne.symm isTurn), there]

/-- **All programs end** when each has had as many turns as it asks requests at most. -/
theorem exists_results {programs : List (Program interface α)} (machine : Machine) {bound : Nat}
    (asks : ∀ program ∈ programs, program.AsksAtMost Request.Free bound) {schedule : List Nat}
    (turns : ∀ place < programs.length, bound ≤ schedule.count place) :
    ∃ results, ((start programs machine).after schedule).results? = some results := by
  refine Option.isSome_iff_exists.mp (isSome_results? fun thread member => ?_)
  obtain ⟨place, isThread⟩ := List.mem_iff_getElem?.mp member
  have isSome : (((start programs machine).after schedule).program? place).isSome := by
    rw [program?, isThread, Option.map_some, Option.isSome_some]
  rw [isSome_program?_after, program?_start] at isSome
  obtain ⟨program, isProgram⟩ := Option.isSome_iff_exists.mp isSome
  have inside : place < programs.length := (List.getElem?_eq_some_iff.mp isProgram).1
  have isIn : program ∈ programs := List.mem_of_getElem? isProgram
  obtain ⟨result, ended⟩ := exists_done_of_count (asks program isIn)
    ((program?_start programs machine place).trans isProgram) (turns place inside)
  rw [program?, isThread] at ended
  exact ⟨result, Option.some.inj ended⟩

end

end Pool

end Host

end DocStore
