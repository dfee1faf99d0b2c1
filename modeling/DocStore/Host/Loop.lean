import DocStore.Host.Pool
/-!
# The order of several programs

A process has one line of programs that can go on.  The first one goes on until it has to wait or
gives way; whoever gives way or has asked a storage in memory goes to the end of the line, and so
does whoever is let into a section.  Calls on the disk and pauses are taken up only when nobody can
go on, in the order in which they were asked.

`Loop.turn` lets one program make one step.
-/

set_option autoImplicit false

namespace DocStore.Host

/-- Programs of one process. -/
structure Loop (α : Type) where
  /-- The programs. -/
  pool : Pool α
  /-- The places of the programs that can go on. -/
  ready : List Nat
  /-- The places of the programs that wait for the disk or for time to pass. -/
  waiting : List Nat

namespace Loop

variable {α : Type}

/-- Programs that start in their order. -/
def start (programs : List (Program interface α)) (machine : Machine) : Loop α :=
  ⟨.start programs machine, List.range programs.length, []⟩

/-- Programs that wait for the disk or for time to pass, and others that start beside them. -/
def beside (waiting started : List (Program interface α)) (machine : Machine) : Loop α where
  pool := .start (waiting ++ started) machine
  ready := (List.range started.length).map (waiting.length + ·)
  waiting := List.range waiting.length

/-- Whether nobody can go on. -/
def isIdle (loop : Loop α) : Bool :=
  loop.ready.isEmpty && loop.waiting.isEmpty

/-- The program at a place, as far as it has come. -/
def program? (loop : Loop α) (place : Nat) : Option (Program interface α) :=
  loop.pool.threads[place]?.map Thread.program

/-- Let the first program of the line, with others behind it, ask a request; `queued` says that it
has come to the section before. -/
def ask (loop : Loop α) (place : Nat) (behind : List Nat) (queued : Bool) (request : Request) :
    Loop α :=
  let pool := loop.pool.step place
  match request with
  | .disk _ | .pause _ => { loop with ready := behind, waiting := loop.waiting ++ [place] }
  | .memory _ _ | .giveWay => { loop with pool, ready := behind ++ [place] }
  | .enter key =>
      let line :=
        if pool.sections.holder? key = some place then
          if queued then place :: behind else behind ++ [place]
        else behind
      { loop with pool, ready := line }
  | .leave key =>
      { loop with pool, ready := place :: behind ++ (pool.sections.holder? key).toList }
  | _ => { loop with pool }

/-- Let one program make a step. -/
def turn (loop : Loop α) : Loop α :=
  match loop.ready, loop.waiting with
  | place :: behind, _ =>
      match loop.pool.threads[place]? with
      | some ⟨.ask request _, queued⟩ => loop.ask place behind queued request
      | _ => { loop with ready := behind }
  | [], place :: others => ⟨loop.pool.step place, [place], others⟩
  | [], [] => loop

end Loop

end DocStore.Host
