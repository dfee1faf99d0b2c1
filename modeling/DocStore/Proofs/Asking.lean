import DocStore.Proofs.Attempt
/-!
# What programs ask

A program of which it is known what it asks can be followed on any state that answers alike:
`Program.run_agrees` says that two ways to answer that stay related at every allowed request stay
related for a whole program, with the same result.  `Attempt.Asks` has one rule for each way to
build an attempt.
-/

set_option autoImplicit false

namespace DocStore

variable {I J : Interface} {α β σ τ : Type} {allowed : I.Request → Prop}

namespace Program

/-- Every request of a program is allowed, whatever the answers are. -/
inductive Asks (allowed : I.Request → Prop) : Program I α → Prop
  | done (result : α) : Asks allowed (.done result)
  | ask {request : I.Request} {next : I.Answer request → Program I α}
      (isAllowed : allowed request) (goesOn : ∀ answer, Asks allowed (next answer)) :
      Asks allowed (.ask request next)

theorem Asks.bind {program : Program I α} (asks : program.Asks allowed)
    {next : α → Program I β} (goesOn : ∀ result, (next result).Asks allowed) :
    (program.bind next).Asks allowed := by
  induction asks with
  | done result => exact goesOn result
  | ask isAllowed _ ih => exact .ask isAllowed ih

theorem Asks.mono {program : Program I α} (asks : program.Asks allowed)
    {allowed' : I.Request → Prop} (implies : ∀ request, allowed request → allowed' request) :
    program.Asks allowed' := by
  induction asks with
  | done result => exact .done result
  | ask isAllowed _ ih => exact .ask (implies _ isAllowed) ih

/-- A program asks nothing but what may be asked at all. -/
theorem Asks.all (program : Program I α) : program.Asks fun _ => True := by
  induction program with
  | done result => exact .done result
  | ask request next ih => exact .ask trivial ih

/-- A program over another interface asks what the programs ask that answer its requests. -/
theorem Asks.interpret {meaning : (request : I.Request) → Program J (I.Answer request)}
    {allowed' : J.Request → Prop} {program : Program I α} (asks : program.Asks allowed)
    (means : ∀ request, allowed request → (meaning request).Asks allowed') :
    (program.interpret meaning).Asks allowed' := by
  induction asks with
  | done result => exact .done result
  | ask isAllowed _ ih => exact (means _ isAllowed).bind ih

/-- A program over another interface is run by answering its requests with programs. -/
theorem run_interpret (meaning : (request : I.Request) → Program J (I.Answer request))
    (answer : (request : J.Request) → σ → J.Answer request × σ) (program : Program I α)
    (state : σ) :
    (program.interpret meaning).run answer state
      = program.run (fun request state => (meaning request).run answer state) state := by
  induction program generalizing state with
  | done result => rfl
  | ask request next ih =>
      rw [interpret, run_bind, ih]
      rfl

/-- **Related states stay related**, with the same result, while a program asks what is allowed. -/
theorem run_agrees {answer : (request : I.Request) → σ → I.Answer request × σ}
    {answer' : (request : I.Request) → τ → I.Answer request × τ} {related : σ → τ → Prop}
    (step : ∀ request, allowed request → ∀ state state', related state state' →
      (answer request state).1 = (answer' request state').1
        ∧ related (answer request state).2 (answer' request state').2)
    {program : Program I α} (asks : program.Asks allowed) {state : σ} {state' : τ}
    (start : related state state') :
    (program.run answer state).1 = (program.run answer' state').1
      ∧ related (program.run answer state).2 (program.run answer' state').2 := by
  induction asks generalizing state state' with
  | done result => exact ⟨rfl, start⟩
  | @ask request next isAllowed _ ih =>
      obtain ⟨same, goesOn⟩ := step request isAllowed state state' start
      simp only [run]
      rw [← same]
      exact ih _ goesOn

/-- A program that asks only what changes nothing leaves the state as it is. -/
theorem Asks.run_same {answer : (request : I.Request) → σ → I.Answer request × σ} {state : σ}
    {program : Program I α} (asks : program.Asks allowed)
    (same : ∀ request, allowed request → (answer request state).2 = state) :
    (program.run answer state).2 = state := by
  induction asks with
  | done result => rfl
  | @ask request next isAllowed _ ih =>
      simp only [run]
      rw [same request isAllowed]
      exact ih _

end Program

namespace Attempt

/-- Every request of an attempt is allowed, whatever the answers are. -/
def Asks (allowed : I.Request → Prop) (attempt : Attempt I α) : Prop :=
  attempt.toProgram.Asks allowed

namespace Asks

theorem pure (value : α) : Asks allowed (Pure.pure value : Attempt I α) := .done _

theorem fail (failure : Failure) : Asks allowed (Attempt.fail failure : Attempt I α) := .done _

theorem ofExcept (result : Except Failure α) :
    Asks allowed (Attempt.ofExcept result : Attempt I α) := .done _

theorem request {request : I.Request} (isAllowed : allowed request) :
    Asks allowed (Attempt.request request) := .ask isAllowed fun _ => .done _

theorem bind {first : Attempt I α} {next : α → Attempt I β} (asks : Asks allowed first)
    (goesOn : ∀ value, Asks allowed (next value)) : Asks allowed (first >>= next) := by
  refine Program.Asks.bind asks fun result => ?_
  cases result with
  | ok value => exact goesOn value
  | error failure => exact .done _

theorem andFinally {attempt : Attempt I α} {last : Attempt I Unit} (asks : Asks allowed attempt)
    (ends : Asks allowed last) : Asks allowed (attempt.andFinally last) := by
  refine Program.Asks.bind asks fun result => Program.Asks.bind ends fun ended => ?_
  cases ended <;> exact .done _

theorem forEach {ι : Type} {list : List ι} {action : ι → Attempt I α}
    (each : ∀ element ∈ list, Asks allowed (action element)) :
    Asks allowed (Attempt.forEach list action) := by
  induction list with
  | nil => exact pure []
  | cons head rest ih =>
      exact bind (each head (by simp)) fun _ =>
        bind (ih fun element member => each element (List.mem_cons_of_mem _ member)) fun _ =>
          pure _

end Asks

end Attempt

end DocStore

/-!
## How much programs ask

A program without loops asks at most a number of requests, whatever the answers are.  The numbers of
what a program is put together of add up: there is one rule for each way to build an attempt.
-/

namespace DocStore

variable {I : Interface} {α β : Type} {allowed : I.Request → Prop}

/-- Every request of a program is allowed, and there are at most so many of them. -/
inductive Program.AsksAtMost (allowed : I.Request → Prop) : Nat → Program I α → Prop
  | done (bound : Nat) (result : α) : AsksAtMost allowed bound (.done result)
  | ask {bound : Nat} {request : I.Request} {next : I.Answer request → Program I α}
      (isAllowed : allowed request) (goesOn : ∀ answer, AsksAtMost allowed bound (next answer)) :
      AsksAtMost allowed (bound + 1) (.ask request next)

namespace Program.AsksAtMost

theorem mono {bound bound' : Nat} {program : Program I α} (asks : program.AsksAtMost allowed bound)
    (more : bound ≤ bound') : program.AsksAtMost allowed bound' := by
  obtain ⟨rest, rfl⟩ := Nat.exists_eq_add_of_le more
  clear more
  induction asks with
  | done bound result => exact .done _ result
  | ask isAllowed _ ih => exact Nat.succ_add .. ▸ .ask isAllowed ih

/-- One program after another. -/
theorem bind {first second : Nat} {program : Program I α}
    (asks : program.AsksAtMost allowed first) {next : α → Program I β}
    (goesOn : ∀ result, (next result).AsksAtMost allowed second) :
    (program.bind next).AsksAtMost allowed (first + second) := by
  induction asks with
  | done bound result => exact (goesOn result).mono (Nat.le_add_left second bound)
  | ask isAllowed _ ih => exact Nat.succ_add .. ▸ .ask isAllowed ih

end Program.AsksAtMost

namespace Attempt

/-- Every request of an attempt is allowed, and there are at most so many of them. -/
def AsksAtMost (allowed : I.Request → Prop) (bound : Nat) (attempt : Attempt I α) : Prop :=
  attempt.toProgram.AsksAtMost allowed bound

namespace AsksAtMost

variable {first second bound : Nat}

theorem pure (value : α) : AsksAtMost allowed bound (Pure.pure value : Attempt I α) := .done _ _

theorem fail (failure : Failure) : AsksAtMost allowed bound (Attempt.fail failure : Attempt I α) :=
  .done _ _

theorem bind {attempt : Attempt I α} {next : α → Attempt I β}
    (asks : AsksAtMost allowed first attempt)
    (goesOn : ∀ value, AsksAtMost allowed second (next value)) :
    AsksAtMost allowed (first + second) (attempt >>= next) := by
  refine Program.AsksAtMost.bind asks fun result => ?_
  cases result with
  | ok value => exact goesOn value
  | error failure => exact .done _ _

theorem andFinally {attempt : Attempt I α} {last : Attempt I Unit}
    (asks : AsksAtMost allowed first attempt) (ends : AsksAtMost allowed second last) :
    AsksAtMost allowed (first + second) (attempt.andFinally last) := by
  refine Program.AsksAtMost.bind asks fun result => ?_
  refine Nat.add_zero second ▸ Program.AsksAtMost.bind ends fun ended => ?_
  cases ended <;> exact .done _ _

end AsksAtMost

end Attempt

end DocStore
