import DocStore.Database.Session
/-!
# Operations that start together

Operations can be started in order without waiting for each other.  Most of them are programs of
their own.  An iteration serves one call at a time, so all calls on the same iteration are one
program, which starts when the first of them does.

A batch is filled in the order of the starts; `Batch.add` and `Batch.call` tell the place at which
the reply will be found.
-/

set_option autoImplicit false

namespace DocStore.Database

/-- What is started at once. -/
inductive Start (α : Type) where
  /-- A program with one reply. -/
  | program (program : Program Host.interface α)
  /-- Calls on the iteration of a number. -/
  | calls (iteration : Nat) (calls : List Iteration.Call)

/-- Whether a start is one of calls on an iteration. -/
def Start.isOf {α : Type} (iteration : Nat) : Start α → Bool
  | .calls number _ => number == iteration
  | .program _ => false

/-- Operations that start together, in the order of their starts. -/
abbrev Batch (α : Type) : Type := List (Start α)

namespace Batch

variable {α : Type}

/-- Where a reply is found: the number of the start, and of the reply among those of the start. -/
abbrev Place : Type := Nat × Nat

/-- The batch with one more program. -/
def add (batch : Batch α) (program : Program Host.interface α) : Place × Batch α :=
  ((batch.length, 0), batch ++ [.program program])

/-- The batch with one more call on an iteration. -/
def call (batch : Batch α) (iteration : Nat) (call : Iteration.Call) : Place × Batch α :=
  match batch.findIdx? (Start.isOf iteration) with
  | none => ((batch.length, 0), batch ++ [.calls iteration [call]])
  | some number =>
      let before := match batch[number]? with
        | some (.calls _ calls) => calls
        | _ => []
      ((number, before.length), batch.set number (.calls iteration (before ++ [call])))

/-- The replies of a start, and how far the iteration has come on which calls were made. -/
abbrev Replies (α : Type) : Type := List α × Option (Nat × Session × Iteration)

/-- The program of a start; how the reply to a call is encoded is given. -/
def run (iterations : List (Session × Iteration))
    (encode : Except Failure (Option Json) → α) : Start α → Program Host.interface (Replies α)
  | .program program => program.bind fun reply => .done ([reply], none)
  | .calls number calls =>
      match iterations[number]? with
      | none => .done ([], none)
      | some (session, iteration) =>
          (session.run (Iteration.serve calls iteration)).toProgram.bind fun served =>
            match served with
            | .error failure => .done (calls.map fun _ => encode (.error failure), none)
            | .ok (answers, iteration) =>
                .done (answers.map encode, some (number, session, iteration))

/-- The iterations after a batch has been run. -/
def iterationsAfter (replies : List (Replies α)) (iterations : List (Session × Iteration)) :
    List (Session × Iteration) :=
  replies.foldl (fun iterations (_, left) =>
    match left with
    | some (number, iteration) => iterations.set number iteration
    | none => iterations) iterations

/-- The reply at a place. -/
def replyAt? (replies : List (Replies α)) (place : Place) : Option α :=
  (replies[place.1]?).bind fun (answers, _) => answers[place.2]?

end Batch

end DocStore.Database
