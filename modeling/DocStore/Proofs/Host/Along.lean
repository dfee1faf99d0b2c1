import DocStore.Proofs.Host.Queue
import Mathlib.Data.Nat.Find
/-!
# Programs between the steps of others

While a program asks its requests one after another, the machine goes on through the steps of
others.  So each request is answered by the machine of some time, and these times rise (`Along`).
What is put together of several parts goes along part by part (`Along.bind_inv`), and what asks once
tells what it would tell if it ran at one moment alone (`Along.once`, `Along.forEach_bind`).

`Pool.along` says that a program in a pool goes along the machines of the pool, and
`Pool.exists_done` that it ends as long as it is let make steps.
-/

set_option autoImplicit false

namespace DocStore.Host

variable {α β : Type} {machines : Nat → Machine} {start finish : Nat}

/-- A program asks its requests of machines at rising times, from one time to another, and comes to
a result. -/
inductive Along (machines : Nat → Machine) {α : Type} :
    Nat → Program interface α → α → Nat → Prop
  | done {start finish : Nat} {result : α} (later : start ≤ finish) :
      Along machines start (.done result) result finish
  | ask {start time finish : Nat} {request : Request} {next : request.Answer → Program interface α}
      {result : α} (later : start ≤ time)
      (goesOn : Along machines (time + 1) (next (Machine.answer request (machines time)).1) result
        finish) :
      Along machines start (.ask request next) result finish

/-- A request that looks at the disk and changes nothing. -/
def Request.Looks : Request → Prop
  | .disk (.read _) | .disk (.list _) | .disk (.status _) => True
  | _ => False

/-- A program that asks once. -/
inductive Once {α : Type} : Program interface α → Prop
  | ask {request : Request} {next : request.Answer → Program interface α}
      (value : request.Answer → α) (ends : ∀ answer, next answer = .done (value answer)) :
      Once (.ask request next)

theorem Request.Looks.answer_snd {request : Request} (looks : request.Looks) (machine : Machine) :
    (Machine.answer request machine).2 = machine := by
  unfold Request.Looks at looks
  split at looks
  iterate 3 rfl
  exact looks.elim

theorem Request.Looks.free {request : Request} (looks : request.Looks) : request.Free := by
  unfold Request.Looks at looks
  split at looks
  iterate 3 trivial
  exact looks.elim

namespace Along

/-! ## Parts of a program -/

theorem le {program : Program interface α} {result : α}
    (along : Along machines start program result finish) : start ≤ finish := by
  induction along with
  | done later => exact later
  | ask later _ ih => exact Nat.le_trans later (Nat.le_of_succ_le ih)

/-- Who begins later has begun before. -/
theorem sooner {program : Program interface α} {result : α}
    (along : Along machines start program result finish) {start' : Nat} (sooner : start' ≤ start) :
    Along machines start' program result finish := by
  cases along with
  | done later => exact .done (Nat.le_trans sooner later)
  | ask later goesOn => exact .ask (Nat.le_trans sooner later) goesOn

theorem bind_inv {program : Program interface α} {next : α → Program interface β} {result : β}
    (along : Along machines start (program.bind next) result finish) :
    ∃ middle value, Along machines start program value middle
      ∧ Along machines middle (next value) result finish := by
  induction program generalizing start with
  | done value => exact ⟨start, value, .done (Nat.le_refl start), along⟩
  | ask request rest ih =>
      cases along with
      | ask later goesOn =>
          obtain ⟨middle, value, first, second⟩ := ih _ goesOn
          exact ⟨middle, value, .ask later first, second⟩

/-- One action after another: the first fails, or the second goes on with its value. -/
theorem action_bind {first : Action α} {next : α → Action β} {result : Except Failure β}
    (along : Along machines start (first >>= next).toProgram result finish) :
    ∃ middle, middle ≤ finish ∧
      ((∃ failure, Along machines start first.toProgram (.error failure) middle
          ∧ result = .error failure)
        ∨ ∃ value, Along machines start first.toProgram (.ok value) middle
          ∧ Along machines middle (next value).toProgram result finish) := by
  have parts : Along machines start (first.toProgram.bind (ExceptT.bindCont next)) result finish :=
    along
  obtain ⟨middle, outcome, comes, goesOn⟩ := parts.bind_inv
  refine ⟨middle, goesOn.le, ?_⟩
  cases outcome with
  | ok value => exact .inr ⟨value, comes, goesOn⟩
  | error failure =>
      cases (goesOn : Along machines middle (.done (.error failure)) result finish)
      exact .inl ⟨failure, comes, rfl⟩

/-- A program that only looks goes along the machine on which it runs alone. -/
theorem alone {program : Program interface α} (asks : program.Asks Request.Looks)
    (machine : Machine) (start : Nat) :
    ∃ finish, Along (fun _ => machine) start program (machine.run program).1 finish := by
  induction asks generalizing start with
  | done result => exact ⟨start, .done (Nat.le_refl start)⟩
  | @ask request next looks _ ih =>
      obtain ⟨finish, goesOn⟩ := ih (Machine.answer request machine).1 (start + 1)
      refine ⟨finish, .ask (Nat.le_refl start) ?_⟩
      have same : (machine.run (.ask request next)).1
          = ((Machine.answer request machine).2.run (next (Machine.answer request machine).1)).1 :=
        rfl
      rwa [same, looks.answer_snd]

/-! ## Single requests -/

/-- Who asks once tells what he tells at one moment. -/
theorem once {program : Program interface α} (isOnce : Once program) {result : α}
    (along : Along machines start program result finish) :
    ∃ time, start ≤ time ∧ time ≤ finish ∧ ((machines time).run program).1 = result := by
  cases isOnce with
  | @ask request next value ends =>
      cases along with
      | @ask _ time _ _ _ _ later goesOn =>
          refine ⟨time, later, Nat.le_of_succ_le goesOn.le, ?_⟩
          show ((next (Machine.answer request (machines time)).1).run _ _).1 = result
          rw [ends] at goesOn ⊢
          cases goesOn
          rfl

/-- What is asked once, and does not fail, is told at some moment before the program goes on. -/
theorem once_bind {first : Action α} {next : α → Action β} {value : Nat → α}
    (isOnce : Once first.toProgram)
    (succeeds : ∀ time, start ≤ time → time ≤ finish →
      ((machines time).attempt first).1 = .ok (value time))
    {result : Except Failure β}
    (along : Along machines start (first >>= next).toProgram result finish) :
    ∃ time middle, start ≤ time ∧ time ≤ middle ∧ middle ≤ finish
      ∧ Along machines middle (next (value time)).toProgram result finish := by
  have single {middle : Nat} {outcome : Except Failure α}
      (asked : Along machines start first.toProgram outcome middle) (before : middle ≤ finish) :
      ∃ time, start ≤ time ∧ time ≤ middle ∧ outcome = .ok (value time) := by
    obtain ⟨time, later, early, told⟩ := asked.once isOnce
    exact ⟨time, later, early, told.symm.trans (succeeds time later (Nat.le_trans early before))⟩
  obtain ⟨middle, before, ⟨failure, asked, _⟩ | ⟨told, asked, goesOn⟩⟩ := along.action_bind
  · obtain ⟨_, _, _, isOk⟩ := single asked before
    cases isOk
  · obtain ⟨time, later, early, isTold⟩ := single asked before
    cases isTold
    exact ⟨time, middle, later, early, before, goesOn⟩

/-- What is asked once for each element of a list is told at some moments, one for each, before the
program goes on. -/
theorem forEach_bind {ι : Type} {list : List ι} {action : ι → Action α} {value : Nat → ι → α}
    {next : List α → Action β} (isOnce : ∀ element, Once (action element).toProgram)
    (succeeds : ∀ element ∈ list, ∀ time, start ≤ time → time ≤ finish →
      ((machines time).attempt (action element)).1 = .ok (value time element))
    {result : Except Failure β}
    (along : Along machines start (Attempt.forEach list action >>= next).toProgram result finish) :
    ∃ (moments : List (ι × Nat)) (middle : Nat), moments.map Prod.fst = list ∧ start ≤ middle
      ∧ middle ≤ finish ∧ (∀ moment ∈ moments, start ≤ moment.2 ∧ moment.2 ≤ middle)
      ∧ Along machines middle
        (next (moments.map fun moment => value moment.2 moment.1)).toProgram result finish := by
  induction list generalizing start next with
  | nil =>
      exact ⟨[], start, rfl, Nat.le_refl start, along.le, (fun _ member => nomatch member), along⟩
  | cons element rest ih =>
      have inParts : (Attempt.forEach (element :: rest) action >>= next).toProgram
          = (action element >>= fun told => Attempt.forEach rest action >>= fun others =>
              next (told :: others)).toProgram := by
        rw [Attempt.forEach, bind_assoc]
        simp only [bind_assoc, pure_bind]
      rw [inParts] at along
      obtain ⟨time, middle, later, early, _, goesOn⟩ :=
        along.once_bind (isOnce element) (succeeds element List.mem_cons_self)
      have after := Nat.le_trans later early
      obtain ⟨moments, last, isList, later', before, within, ends⟩ := ih
        (fun other member time later => succeeds other (List.mem_cons_of_mem _ member) time
          (Nat.le_trans after later)) goesOn
      refine ⟨(element, time) :: moments, last, by rw [List.map_cons, isList],
        Nat.le_trans after later', before, fun moment member => ?_, ends⟩
      rcases List.mem_cons.mp member with rfl | member
      · exact ⟨later, Nat.le_trans early later'⟩
      · obtain ⟨later, early⟩ := within moment member
        exact ⟨Nat.le_trans after later, early⟩

end Along

/-! ## Actions that ask once -/

namespace Once

theorem tryCall (call : Disk.Call) : Once (tryCall call).toProgram := .ask _ fun _ => rfl

/-- What is made of the answer without asking. -/
theorem bind {first : Action α} {next : α → Action β} (isOnce : Once first.toProgram)
    (ends : ∀ value, ∃ result, (next value).toProgram = .done result) :
    Once (first >>= next).toProgram := by
  have settles (outcome : Except Failure α) :
      ∃ result, (ExceptT.bindCont next outcome : Program interface (Except Failure β))
        = .done result := by
    cases outcome with
    | ok value => exact ends value
    | error failure => exact ⟨.error failure, rfl⟩
  choose result isResult using settles
  show Once (first.toProgram.bind (ExceptT.bindCont next))
  generalize first.toProgram = program at isOnce
  cases isOnce with
  | ask value ended =>
      refine .ask (fun answer => result (value answer)) fun answer => ?_
      rw [ended, Program.done_bind, isResult]

end Once

/-! ## Programs in a pool -/

namespace Pool

variable {pool : Pool α} {turns : Nat → Nat} {place : Nat} {program : Program interface α}

/-- The machine of a pool at a time. -/
def machineAt (pool : Pool α) (turns : Nat → Nat) (time : Nat) : Machine :=
  (pool.atTime turns time).machine

/-- The program at a place goes on only when it makes a step. -/
theorem program?_step_of_ne {other : Nat} (differ : other ≠ place) :
    (pool.step place).program? other = pool.program? other := by
  cases pool.step_moves place with
  | stays _ _ programs => exact programs other
  | asks _ _ programs => rw [programs, if_neg differ]

/-- **A program in a pool** goes along the machines of the pool. -/
theorem along {result : α} (before : start ≤ finish)
    (begins : (pool.atTime turns start).program? place = some program)
    (ended : (pool.atTime turns finish).program? place = some (.done result)) :
    Along (pool.machineAt turns) start program result finish := by
  obtain ⟨steps, rfl⟩ := Nat.exists_eq_add_of_le before
  induction steps generalizing start program with
  | zero =>
      rw [Nat.add_zero] at ended
      rw [begins] at ended
      cases ended
      exact .done (Nat.le_refl _)
  | succ steps ih =>
      rw [Nat.add_succ, ← Nat.succ_add] at ended
      have goesOn {program : Program interface α}
          (begins : (pool.atTime turns (start + 1)).program? place = some program) :
          Along (pool.machineAt turns) (start + 1) program result (start + 1 + steps) :=
        ih begins (Nat.le_add_right _ _) ended
      rw [Nat.add_succ, ← Nat.succ_add]
      cases (pool.atTime turns start).step_moves (turns start) with
      | stays _ _ programs =>
          exact (goesOn ((programs place).trans begins)).sooner (Nat.le_succ start)
      | @asks request next isNext _ programs =>
          by_cases isTurn : place = turns start
          · subst isTurn
            rw [begins] at isNext
            cases isNext
            refine .ask (Nat.le_refl start) (goesOn ?_)
            exact (programs _).trans (if_pos rfl)
          · refine (goesOn ?_).sooner (Nat.le_succ start)
            exact ((programs place).trans (if_neg isTurn)).trans begins

/-- As long as it makes no step a program stays as it is. -/
theorem program?_of_idle (before : start ≤ finish)
    (idle : ∀ time, start ≤ time → time < finish → turns time ≠ place) :
    (pool.atTime turns finish).program? place = (pool.atTime turns start).program? place := by
  obtain ⟨steps, rfl⟩ := Nat.exists_eq_add_of_le before
  induction steps with
  | zero => rfl
  | succ steps ih =>
      have stays := idle (start + steps) (Nat.le_add_right _ _) (Nat.lt_succ_self _)
      rw [Nat.add_succ, atTime, program?_step_of_ne stays.symm]
      exact ih (Nat.le_add_right _ _) fun time later early =>
        idle time later (Nat.lt_succ_of_lt early)

/-- A program that has to do with no section goes on when it makes a step. -/
theorem program?_of_turn {request : Request} {next : request.Answer → Program interface α}
    (free : request.Free) {time : Nat} (isTurn : turns time = place)
    (there : (pool.atTime turns time).program? place = some (.ask request next)) :
    (pool.atTime turns (time + 1)).program? place
      = some (next (Machine.answer request (pool.machineAt turns time)).1) := by
  have moves := (pool.atTime turns time).step_moves (turns time)
  rw [isTurn] at moves
  rw [atTime, isTurn]
  cases moves with
  | stays waits =>
      obtain ⟨key, rfl⟩ := waits request next there
      exact free.elim
  | asks isNext _ programs =>
      rw [there] at isNext
      cases isNext
      exact (programs place).trans (if_pos rfl)

/-- What asks once has been told after one step. -/
theorem program?_of_once {first : Program interface β} {next : β → Program interface α}
    (isOnce : Once first) (free : first.Asks Request.Free) {time : Nat}
    (isTurn : turns time = place)
    (there : (pool.atTime turns time).program? place = some (first.bind next)) :
    (pool.atTime turns (time + 1)).program? place
      = some (next ((pool.machineAt turns time).run first).1) := by
  cases isOnce with
  | @ask request rest value ends =>
      cases free with
      | ask isFree _ =>
          rw [program?_of_turn isFree isTurn there, ends, Program.done_bind]
          show _ = some (next ((rest (Machine.answer request _).1).run _ _).1)
          rw [ends]
          rfl

/-- A program that is let make steps again and again ends. -/
theorem exists_done (again : ∀ time, ∃ later, time ≤ later ∧ turns later = place)
    (asks : program.Asks Request.Free) {time : Nat}
    (there : (pool.atTime turns time).program? place = some program) :
    ∃ finish result, time ≤ finish
      ∧ (pool.atTime turns finish).program? place = some (.done result) := by
  induction asks generalizing time with
  | done result => exact ⟨time, result, Nat.le_refl time, there⟩
  | @ask request next free _ ih =>
      classical
      have turn := again time
      obtain ⟨isLater, isTurn⟩ := Nat.find_spec turn
      have idle (other : Nat) (later : time ≤ other) (early : other < Nat.find turn) :
          turns other ≠ place := fun same => Nat.find_min turn early ⟨later, same⟩
      have there' : (pool.atTime turns (Nat.find turn)).program? place = some (.ask request next) :=
        (program?_of_idle isLater idle).trans there
      obtain ⟨finish, result, within, ended⟩ := ih _ (program?_of_turn free isTurn there')
      exact ⟨finish, result, Nat.le_trans isLater (Nat.le_of_succ_le within), ended⟩

end Pool

end DocStore.Host
