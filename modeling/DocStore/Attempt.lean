import DocStore.Error.Failure
import DocStore.Program
/-!
# Programs that can fail

An attempt is a program whose result is either a value or a failure.  After a failure nothing more
is asked, unless it is caught: `Attempt.andFinally` runs a last part in either case, whose own
failure wins.
-/

set_option autoImplicit false

namespace DocStore

/-- A program that can fail. -/
abbrev Attempt (I : Interface) (α : Type) : Type :=
  ExceptT Failure (Program I) α

namespace Attempt

variable {I J : Interface} {α β : Type}

/-- The attempt that a program is. -/
def ofProgram (program : Program I (Except Failure α)) : Attempt I α :=
  ExceptT.mk program

/-- The program that an attempt is. -/
def toProgram (attempt : Attempt I α) : Program I (Except Failure α) :=
  attempt.run

/-- Ask a request that cannot fail. -/
def request (request : I.Request) : Attempt I (I.Answer request) :=
  ofProgram (.ask request fun answer => .done (.ok answer))

/-- A result that is known without asking. -/
def ofExcept (result : Except Failure α) : Attempt I α :=
  ofProgram (.done result)

/-- Fail. -/
def fail (failure : Failure) : Attempt I α :=
  ofProgram (.done (.error failure))

/-- The outcome of an attempt, as a program that does not fail. -/
def outcome (attempt : Attempt I α) : Attempt I (Except Failure α) :=
  ofProgram (attempt.toProgram.bind fun result => .done (.ok result))

/-- Run an attempt and then a last part, whatever came of the attempt; a failure of the last part
replaces what came of it. -/
def andFinally (attempt : Attempt I α) (last : Attempt I Unit) : Attempt I α :=
  ofProgram (attempt.toProgram.bind fun result =>
    last.toProgram.bind fun ended =>
      match ended with
      | .ok () => .done result
      | .error failure => .done (.error failure))

/-- The attempt over another interface in which every request is replaced by a program. -/
def interpret (meaning : (request : I.Request) → Program J (I.Answer request))
    (attempt : Attempt I α) : Attempt J α :=
  ofProgram (attempt.toProgram.interpret meaning)

/-- Do something for each element of a list, in order. -/
def forEach {ι : Type} (list : List ι) (action : ι → Attempt I α) : Attempt I (List α) :=
  match list with
  | [] => pure []
  | head :: rest => do
      let first ← action head
      let others ← forEach rest action
      return first :: others

end Attempt

end DocStore
