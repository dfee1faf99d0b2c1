import DocStore.Caller.Key
import DocStore.Lock.Tails
/-!
# Tasks that take turns

Tasks come to keys.  A task begins when every task that came to its key before has ended; it ends
with a value or by failing, and either lets the next one begin.  A task may fail as soon as it
begins.  `Turns` keeps the calls that have brought the tasks, and every step tells what has happened
until nothing happens any more by itself.
-/

set_option autoImplicit false

namespace DocStore

/-- A task. -/
structure Task where
  /-- The name of the task. -/
  name : String
  /-- The message with which the task fails as soon as it begins, if it does. -/
  failure : Option String
deriving DecidableEq

/-- How a task ends. -/
inductive Ending where
  /-- With a value, as JSON text. -/
  | value (text : String)
  /-- By failing. -/
  | failure (message : String)
deriving DecidableEq

/-- What happens to a task. -/
inductive TaskEvent where
  /-- The task begins. -/
  | begins (name : String)
  /-- The call of the task settles with what the task has ended with. -/
  | ends (name : String) (ending : Ending)
deriving DecidableEq

/-- What a line says about an event. -/
def TaskEvent.text : TaskEvent → String
  | begins name => "run " ++ name
  | ends name (.value text) => "done " ++ name ++ " " ++ text
  | ends name (.failure message) => "failed " ++ name ++ " " ++ message

/-- The tasks that have come. -/
structure Turns where
  /-- The calls that have brought them. -/
  tails : Tails Caller.Identity Task Ending
  /-- The places of the tasks that can be ended, by the names of the tasks.  A task that begins
  takes its name from a running task of the same name, which nobody can end any more. -/
  running : List (String × Nat)

namespace Turns

/-- No tasks. -/
def empty : Turns := ⟨.empty, []⟩

/-- The moves that need nobody to end a task, about the call at a place. -/
def ownMoves (turns : Turns) (place : Nat) : List (Tails.Move Caller.Identity Task Ending) :=
  match turns.tails.visits[place]? with
  | some ⟨_, ⟨_, some message⟩, _, _⟩ =>
      [.begins place, .ends place (.failure message), .passes place, .settles place]
  | _ => [.begins place, .passes place, .settles place]

/-- The tasks that can be ended after a move. -/
def runningAfter (turns : Turns) : Tails.Move Caller.Identity Task Ending → List (String × Nat)
  | .begins place =>
      match turns.tails.visits[place]? with
      | some ⟨_, ⟨name, none⟩, _, _⟩ =>
          (name, place) :: turns.running.filter fun entry => entry.1 != name
      | _ => turns.running
  | _ => turns.running

/-- What a move tells. -/
def told (turns : Turns) : Tails.Move Caller.Identity Task Ending → List TaskEvent
  | .begins place =>
      (turns.tails.visits[place]?.map fun visit => TaskEvent.begins visit.task.name).toList
  | .settles place =>
      match turns.tails.visits[place]? with
      | some ⟨_, task, _, .ended ending _ _⟩ => [.ends task.name ending]
      | _ => []
  | _ => []

/-- The first move that can be made and needs nobody to end a task. -/
def next? (turns : Turns) :
    Option (Tails.Move Caller.Identity Task Ending × Tails Caller.Identity Task Ending) :=
  (List.range turns.tails.visits.length).findSome? fun place =>
    (turns.ownMoves place).findSome? fun move => (turns.tails.move move).map (move, ·)

theorem ne_comes_of_mem_ownMoves {turns : Turns} {place : Nat}
    {move : Tails.Move Caller.Identity Task Ending} (isOwn : move ∈ turns.ownMoves place)
    (key : Caller.Identity) (task : Task) : move ≠ .comes key task := by
  rintro rfl
  unfold ownMoves at isOwn
  split at isOwn <;> simp at isOwn

theorem step_of_next? {turns : Turns} {move : Tails.Move Caller.Identity Task Ending}
    {tails : Tails Caller.Identity Task Ending} (found : turns.next? = some (move, tails)) :
    turns.tails.Step move tails ∧ tails.left < turns.tails.left := by
  obtain ⟨place, _, found⟩ := List.exists_of_findSome?_eq_some found
  obtain ⟨move', isOwn, found⟩ := List.exists_of_findSome?_eq_some found
  obtain ⟨tails', moves, same⟩ := Option.map_eq_some_iff.mp found
  cases same
  have step := Tails.move_eq_some_iff.mp moves
  refine ⟨step, ?_⟩
  rcases Tails.left_step step with ⟨key, task, isComing, _⟩ | fewer
  · exact absurd isComing (ne_comes_of_mem_ownMoves isOwn key task)
  · exact Nat.lt_of_succ_le (Nat.le_of_eq fewer)

/-- Make moves as long as one can be made that needs nobody to end a task. -/
def settle (turns : Turns) : List TaskEvent × Turns :=
  match found : turns.next? with
  | none => ([], turns)
  | some (move, tails) =>
      have : tails.left < turns.tails.left := (step_of_next? found).2
      let (events, settled) := settle ⟨tails, turns.runningAfter move⟩
      (turns.told move ++ events, settled)
termination_by turns.tails.left

/-- Let a task come to a key. -/
def start (turns : Turns) (key : Caller.Identity) (task : Task) : List TaskEvent × Turns :=
  settle { turns with tails := turns.tails.come key task }

/-- Let a running task end; nothing where it is not running. -/
def finish (turns : Turns) (name : String) (ending : Ending) : Option (List TaskEvent × Turns) := do
  let place ← turns.running.lookup name
  let tails ← turns.tails.move (.ends place ending)
  return settle ⟨tails, turns.running.filter fun entry => entry.1 != name⟩

/-- Whether a key is in use. -/
def isLocked (turns : Turns) (key : Caller.Identity) : Bool :=
  turns.tails.isLocked key

end Turns

end DocStore
