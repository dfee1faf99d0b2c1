/-!
# Programs that ask

A program either ends with a result or asks a request and goes on with the answer.  What can be
asked, and what kind of answer each request has, is an interface.  A program does nothing itself: it
is run by whoever answers, so that the same program can run against a model and against the world,
alone or between the steps of other programs.

`Program.interpret` turns every request of a program into a program over another interface;
`interpret_bind` says that it respects sequencing, and `run_bind` the same of running a program
with answers computed from a state.
-/

set_option autoImplicit false

namespace DocStore

/-- What can be asked, and the kind of the answers. -/
structure Interface where
  /-- The requests. -/
  Request : Type
  /-- The answers to a request. -/
  Answer : Request → Type

/-- A program over an interface, with results in a type. -/
inductive Program (I : Interface) (α : Type) where
  /-- End with a result. -/
  | done (result : α)
  /-- Ask a request and go on with the answer. -/
  | ask (request : I.Request) (next : I.Answer request → Program I α)

namespace Program

variable {I J : Interface} {α β γ σ : Type}

/-- One program after another. -/
def bind : Program I α → (α → Program I β) → Program I β
  | done result, next => next result
  | ask request rest, next => ask request fun answer => (rest answer).bind next

instance : Monad (Program I) where
  pure := done
  bind := bind

@[simp] theorem done_bind (result : α) (next : α → Program I β) :
    (done result : Program I α).bind next = next result := rfl

@[simp] theorem ask_bind (request : I.Request) (rest : I.Answer request → Program I α)
    (next : α → Program I β) :
    (ask request rest).bind next = ask request fun answer => (rest answer).bind next := rfl

theorem bind_done (program : Program I α) : program.bind done = program := by
  induction program with
  | done result => rfl
  | ask request rest ih => simp only [ask_bind, ih]

theorem bind_assoc (program : Program I α) (first : α → Program I β) (second : β → Program I γ) :
    (program.bind first).bind second = program.bind fun result => (first result).bind second := by
  induction program with
  | done result => rfl
  | ask request rest ih => simp only [ask_bind, ih]

instance : LawfulMonad (Program I) :=
  LawfulMonad.mk' (Program I)
    (fun program => bind_done program)
    (fun _ _ => rfl)
    (fun program first second => bind_assoc program first second)

/-- Ask a request and end with the answer. -/
def request (request : I.Request) : Program I (I.Answer request) :=
  ask request done

/-- The program over another interface in which every request is replaced by a program. -/
def interpret (meaning : (request : I.Request) → Program J (I.Answer request)) :
    Program I α → Program J α
  | done result => done result
  | ask request next => (meaning request).bind fun answer => (next answer).interpret meaning

theorem interpret_bind (meaning : (request : I.Request) → Program J (I.Answer request))
    (program : Program I α) (next : α → Program I β) :
    (program.bind next).interpret meaning
      = (program.interpret meaning).bind fun result => (next result).interpret meaning := by
  induction program with
  | done result => rfl
  | ask request rest ih => simp only [ask_bind, interpret, bind_assoc, ih]

/-- Run a program, with every request answered from a state. -/
def run (answer : (request : I.Request) → σ → I.Answer request × σ) :
    Program I α → σ → α × σ
  | done result, state => (result, state)
  | ask request next, state =>
      let (value, state) := answer request state
      (next value).run answer state

theorem run_bind (answer : (request : I.Request) → σ → I.Answer request × σ)
    (program : Program I α) (next : α → Program I β) (state : σ) :
    (program.bind next).run answer state
      = (next (program.run answer state).1).run answer (program.run answer state).2 := by
  induction program generalizing state with
  | done result => rfl
  | ask request rest ih => simp only [ask_bind, run, ih]

end Program

end DocStore
