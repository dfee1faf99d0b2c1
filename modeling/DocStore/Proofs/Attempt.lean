import DocStore.Attempt
/-!
# Running attempts

An attempt is run with every request answered from a state (`Attempt.eval`).  There is one rule for
each way to build an attempt, so that a run is followed step by step: `eval_bind_ok` goes on after a
step that succeeds, `eval_bind_error` ends the run at one that fails.
-/

set_option autoImplicit false

namespace DocStore

/-- What runs alike from two states does so with whatever follows. -/
theorem Program.run_bind_congr {I : Interface} {α β σ : Type}
    {answer : (request : I.Request) → σ → I.Answer request × σ} (program : Program I α)
    {next : α → Program I β} {state state' : σ}
    (alike : program.run answer state = program.run answer state') :
    (program.bind next).run answer state = (program.bind next).run answer state' := by
  rw [run_bind, run_bind, alike]

namespace Attempt

variable {I : Interface} {α β σ : Type}
  (answer : (request : I.Request) → σ → I.Answer request × σ)

/-- What comes of an attempt, with every request answered from a state. -/
def eval (attempt : Attempt I α) (state : σ) : Except Failure α × σ :=
  attempt.toProgram.run answer state

@[simp] theorem eval_pure (value : α) (state : σ) :
    eval answer (pure value) state = (.ok value, state) := rfl

@[simp] theorem eval_fail (failure : Failure) (state : σ) :
    eval answer (fail failure : Attempt I α) state = (.error failure, state) := rfl

@[simp] theorem eval_ofExcept (result : Except Failure α) (state : σ) :
    eval answer (ofExcept result : Attempt I α) state = (result, state) := rfl

@[simp] theorem eval_request (request : I.Request) (state : σ) :
    eval answer (Attempt.request request) state
      = (.ok (answer request state).1, (answer request state).2) := rfl

theorem eval_bind (first : Attempt I α) (next : α → Attempt I β) (state : σ) :
    eval answer (first >>= next) state
      = match (eval answer first state).1 with
        | .ok value => eval answer (next value) (eval answer first state).2
        | .error failure => (.error failure, (eval answer first state).2) := by
  refine (Program.run_bind answer first.toProgram (ExceptT.bindCont next) state).trans ?_
  simp only [eval]
  cases (first.toProgram.run answer state).1 <;> rfl

/-- What is only worked out from a value asks nothing more. -/
theorem eval_bind_ofExcept (first : Attempt I α) (next : α → Except Failure β) (state : σ) :
    eval answer (first >>= fun value => ofExcept (next value)) state
      = ((eval answer first state).1.bind next, (eval answer first state).2) := by
  rw [eval_bind]
  cases (eval answer first state).1 <;> rfl

section

variable {answer} {first : Attempt I α} {next : α → Attempt I β} {state state' : σ}

/-- A run goes on after a step that succeeds. -/
theorem eval_bind_ok {value : α} (step : eval answer first state = (.ok value, state')) :
    eval answer (first >>= next) state = eval answer (next value) state' := by
  rw [eval_bind, step]

/-- A run ends at a step that fails. -/
theorem eval_bind_error {failure : Failure} (step : eval answer first state = (.error failure, state')) :
    eval answer (first >>= next) state = (.error failure, state') := by
  rw [eval_bind, step]

end

/-- What comes to the same in two states does so with whatever follows. -/
theorem eval_bind_congr {answer : (request : I.Request) → σ → I.Answer request × σ}
    {first : Attempt I α} {next : α → Attempt I β} {state state' : σ}
    (alike : eval answer first state = eval answer first state') :
    eval answer (first >>= next) state = eval answer (first >>= next) state' :=
  Program.run_bind_congr _ alike

@[simp] theorem eval_map (change : α → β) (attempt : Attempt I α) (state : σ) :
    eval answer (change <$> attempt) state
      = ((eval answer attempt state).1.map change, (eval answer attempt state).2) := by
  rw [map_eq_pure_bind, eval_bind]
  cases (eval answer attempt state).1 <;> rfl

@[simp] theorem eval_outcome (attempt : Attempt I α) (state : σ) :
    eval answer attempt.outcome state
      = (.ok (eval answer attempt state).1, (eval answer attempt state).2) :=
  Program.run_bind answer attempt.toProgram _ state

theorem eval_andFinally (attempt : Attempt I α) (last : Attempt I Unit) (state : σ) :
    eval answer (attempt.andFinally last) state
      = match (eval answer last (eval answer attempt state).2).1 with
        | .ok () => ((eval answer attempt state).1,
            (eval answer last (eval answer attempt state).2).2)
        | .error failure => (.error failure, (eval answer last (eval answer attempt state).2).2) := by
  refine (Program.run_bind answer attempt.toProgram _ state).trans ?_
  rw [Program.run_bind]
  simp only [eval]
  cases (last.toProgram.run answer (attempt.toProgram.run answer state).2).1 <;> rfl

/-- A last part that succeeds passes on what came before it. -/
theorem eval_andFinally_ok {attempt : Attempt I α} {last : Attempt I Unit} {state state' : σ}
    (ends : eval answer last (eval answer attempt state).2 = (.ok (), state')) :
    eval answer (attempt.andFinally last) state = ((eval answer attempt state).1, state') := by
  rw [eval_andFinally, ends]

@[simp] theorem eval_forEach_nil {ι : Type} (action : ι → Attempt I α) (state : σ) :
    eval answer (forEach [] action) state = (.ok [], state) := rfl

theorem eval_forEach_cons {ι : Type} (head : ι) (rest : List ι) (action : ι → Attempt I α)
    (state : σ) :
    eval answer (forEach (head :: rest) action) state
      = eval answer (action head >>= fun first => forEach rest action >>= fun others =>
          pure (first :: others)) state := rfl

end Attempt

end DocStore

/-!
## What programs can fail with

What a program ends with can be told without running it, as far as it does not depend on the
answers to its requests: `Program.Ends` says that every result satisfies a predicate, as long as all
answers are of some kind.  An attempt fails with failures of a kind only when all its results do
(`Attempt.FailsWith`), and there is one rule for each way to build an attempt.  A program in which
requests are replaced by programs is followed through both (`Program.Ends.interpret`).
-/

namespace DocStore

variable {I J : Interface} {α β : Type}

namespace Program

/-- Every result of a program satisfies a predicate, as long as the answers are of some kind. -/
inductive Ends (answers : (request : I.Request) → I.Answer request → Prop) (holds : α → Prop) :
    Program I α → Prop
  | done {result : α} (held : holds result) : Ends answers holds (.done result)
  | ask {request : I.Request} {next : I.Answer request → Program I α}
      (goesOn : ∀ answer, answers request answer → Ends answers holds (next answer)) :
      Ends answers holds (.ask request next)

namespace Ends

variable {answers : (request : I.Request) → I.Answer request → Prop} {holds holds' : α → Prop}
  {program : Program I α}

theorem mono (ends : program.Ends answers holds) (implies : ∀ result, holds result → holds' result) :
    program.Ends answers holds' := by
  induction ends with
  | done held => exact .done (implies _ held)
  | ask _ ih => exact .ask ih

theorem bind {next : α → Program I β} {kept : β → Prop} (ends : program.Ends answers holds)
    (goesOn : ∀ result, holds result → (next result).Ends answers kept) :
    (program.bind next).Ends answers kept := by
  induction ends with
  | done held => exact goesOn _ held
  | ask _ ih => exact .ask ih

/-- Where a request is replaced by a program, the answers are the results of that program. -/
theorem interpret {meaning : (request : I.Request) → Program J (I.Answer request)}
    {answers' : (request : J.Request) → J.Answer request → Prop}
    (ends : program.Ends answers holds)
    (means : ∀ request, (meaning request).Ends answers' (answers request)) :
    (program.interpret meaning).Ends answers' holds := by
  induction ends with
  | done held => exact .done held
  | ask _ ih => exact (means _).bind ih

/-- What is known of every result is known of the result of a run. -/
theorem of_run {σ : Type} {answer : (request : I.Request) → σ → I.Answer request × σ}
    (ends : program.Ends answers holds)
    (answered : ∀ request state, answers request (answer request state).1) (state : σ) :
    holds (program.run answer state).1 := by
  induction ends generalizing state with
  | done held => exact held
  | ask _ ih => exact ih _ (answered _ state) _

end Ends

end Program

namespace Attempt

variable {answers : (request : I.Request) → I.Answer request → Prop} {kind kind' : Failure → Prop}

/-- A result is a value or a failure of a kind. -/
inductive Only {α : Type} (kind : Failure → Prop) : Except Failure α → Prop
  | ok (value : α) : Only kind (.ok value)
  | error {failure : Failure} (isKind : kind failure) : Only kind (.error failure)

/-- An attempt fails with failures of a kind only, as long as the answers are of some kind. -/
def FailsWith (answers : (request : I.Request) → I.Answer request → Prop) (kind : Failure → Prop)
    (attempt : Attempt I α) : Prop :=
  attempt.toProgram.Ends answers (Only kind)

theorem Only.mono {result : Except Failure α} (only : Only kind result)
    (implies : ∀ failure, kind failure → kind' failure) : Only kind' result := by
  cases only with
  | ok value => exact .ok value
  | error isKind => exact .error (implies _ isKind)

theorem Only.of_error {failure : Failure} (only : Only kind (.error failure : Except Failure α)) :
    kind failure := by
  cases only with
  | error isKind => exact isKind

theorem only_mapError {ε : Type} {failure : ε → Failure} (isKind : ∀ error, kind (failure error))
    (result : Except ε α) : Only kind (result.mapError failure) := by
  cases result with
  | ok value => exact .ok value
  | error error => exact .error (isKind error)

theorem Only.bind {result : Except Failure α} {next : α → Except Failure β}
    (only : Only kind result) (goesOn : ∀ value, Only kind (next value)) :
    Only kind (result >>= next) := by
  cases only with
  | ok value => exact goesOn value
  | error isKind => exact .error isKind

theorem Only.map {result : Except Failure α} (change : α → β) (only : Only kind result) :
    Only kind (change <$> result) := by
  cases only with
  | ok value => exact .ok (change value)
  | error isKind => exact .error isKind

namespace FailsWith

theorem mono {attempt : Attempt I α} (fails : attempt.FailsWith answers kind)
    (implies : ∀ failure, kind failure → kind' failure) : attempt.FailsWith answers kind' :=
  Program.Ends.mono fails fun _ only => only.mono implies

theorem pure (value : α) : FailsWith answers kind (Pure.pure value : Attempt I α) :=
  .done (.ok value)

theorem fail {failure : Failure} (isKind : kind failure) :
    FailsWith answers kind (Attempt.fail failure : Attempt I α) := .done (.error isKind)

theorem ofExcept {result : Except Failure α} (only : Only kind result) :
    FailsWith answers kind (Attempt.ofExcept result : Attempt I α) := .done only

theorem request (request : I.Request) : FailsWith answers kind (Attempt.request request) :=
  .ask fun _ _ => .done (.ok _)

theorem bind {first : Attempt I α} {next : α → Attempt I β} (fails : first.FailsWith answers kind)
    (goesOn : ∀ value, (next value).FailsWith answers kind) :
    (first >>= next).FailsWith answers kind := by
  refine Program.Ends.bind fails fun result only => ?_
  cases only with
  | ok value => exact goesOn value
  | error isKind => exact .done (.error isKind)

/-- What follows the outcome of an attempt knows what the attempt can fail with. -/
theorem outcome_bind {attempt : Attempt I α} {next : Except Failure α → Attempt I β}
    (fails : attempt.FailsWith answers kind')
    (goesOn : ∀ result, Only kind' result → (next result).FailsWith answers kind) :
    (attempt.outcome >>= next).FailsWith answers kind := by
  have ends : attempt.outcome.toProgram.Ends answers fun result =>
      ∃ told, result = .ok told ∧ Only kind' told :=
    Program.Ends.bind fails fun result only => .done ⟨result, rfl, only⟩
  refine Program.Ends.bind ends fun result known => ?_
  obtain ⟨told, rfl, only⟩ := known
  exact goesOn told only

theorem andFinally {attempt : Attempt I α} {last : Attempt I Unit}
    (fails : attempt.FailsWith answers kind) (ends : last.FailsWith answers kind) :
    (attempt.andFinally last).FailsWith answers kind := by
  refine Program.Ends.bind fails fun result only => Program.Ends.bind ends fun ended onlyEnd => ?_
  cases ended with
  | ok _ => exact .done only
  | error failure => exact .done (.error onlyEnd.of_error)

theorem forEach {ι : Type} {list : List ι} {action : ι → Attempt I α}
    (each : ∀ element, (action element).FailsWith answers kind) :
    (Attempt.forEach list action).FailsWith answers kind := by
  induction list with
  | nil => exact pure []
  | cons head rest ih => exact bind (each head) fun _ => bind ih fun _ => pure _

/-- What an attempt fails with when it is run. -/
theorem of_eval {σ : Type} {answer : (request : I.Request) → σ → I.Answer request × σ}
    {attempt : Attempt I α} (fails : attempt.FailsWith answers kind)
    (answered : ∀ request state, answers request (answer request state).1) {state : σ}
    {failure : Failure} (isFailure : (Attempt.eval answer attempt state).1 = .error failure) :
    kind failure := by
  have only : Only kind (Attempt.eval answer attempt state).1 :=
    Program.Ends.of_run fails answered state
  rw [isFailure] at only
  exact only.of_error

end FailsWith

end Attempt

end DocStore
