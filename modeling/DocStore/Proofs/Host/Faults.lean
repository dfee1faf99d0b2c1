import DocStore.Proofs.Asking
import DocStore.Proofs.Disk.FileAt
import DocStore.Proofs.Host.Steps
/-!
# Calls that fail

In a pool a call on the disk may fail although the disk would let it succeed: nothing is done, or a
part of a content is written.  Only what is open can always be closed, and what is there removed.
Time may pass besides.  What happens to a pool is a list of such turns (`Pool.turn`); what each
program asks and is told on the way is what it has been through (`Pool.through`), and tells what is
left of it (`Program.Leaves`).

`Pool.turn_turns` says what one turn can do; what it can do to a disk is what a call or a fault does
(`Replies`), and both keep a disk in order (`Replies.inOrder`).
-/

set_option autoImplicit false

namespace DocStore

/-! ## What programs have been told -/

/-- A request and what it has been answered. -/
structure Exchange (I : Interface) where
  request : I.Request
  answer : I.Answer request

/-- What some exchanges leave of a program. -/
inductive Program.Leaves {I : Interface} {α : Type} :
    Program I α → List (Exchange I) → Program I α → Prop
  | nothing (program : Program I α) : Leaves program [] program
  | next {request : I.Request} {answer : I.Answer request} {rest : I.Answer request → Program I α}
      {since : List (Exchange I)} {left : Program I α} (goesOn : Leaves (rest answer) since left) :
      Leaves (.ask request rest) (⟨request, answer⟩ :: since) left

namespace Program.Leaves

variable {I : Interface} {α β : Type} {program left left' : Program I α}
  {before since : List (Exchange I)}

theorem append (leaves : program.Leaves before left) (leaves' : left.Leaves since left') :
    program.Leaves (before ++ since) left' := by
  induction leaves with
  | nothing => exact leaves'
  | next _ ih => exact .next (ih leaves')

/-- One exchange more. -/
theorem concat {request : I.Request} {rest : I.Answer request → Program I α}
    (leaves : program.Leaves before (.ask request rest)) (answer : I.Answer request) :
    program.Leaves (before ++ [⟨request, answer⟩]) (rest answer) :=
  leaves.append (.next (.nothing _))

/-- What follows a program follows what is left of it. -/
theorem bind (leaves : program.Leaves before left) (next : α → Program I β) :
    (program.bind next).Leaves before (left.bind next) := by
  induction leaves with
  | nothing => exact .nothing _
  | next _ ih => exact .next ih

/-- What has been left goes on to what is left now. -/
theorem goesOn (leaves : program.Leaves before left)
    (leaves' : program.Leaves (before ++ since) left') : left.Leaves since left' := by
  induction leaves with
  | nothing => exact leaves'
  | next _ ih =>
      cases leaves' with
      | next goesOn => exact ih goesOn

/-- What has ended goes through nothing more. -/
theorem of_done {result : α} (leaves : (.done result : Program I α).Leaves since left) :
    since = [] ∧ left = .done result := by
  cases leaves
  exact ⟨rfl, rfl⟩

/-- A program that asks goes through nothing, or first through an answer. -/
theorem of_ask {request : I.Request} {rest : I.Answer request → Program I α}
    {said : List (Exchange I)} (leaves : (Program.ask request rest).Leaves said left) :
    said = [] ∧ (∀ result, left ≠ .done result)
      ∨ ∃ answer since, said = ⟨request, answer⟩ :: since ∧ (rest answer).Leaves since left := by
  cases leaves with
  | nothing => exact .inl ⟨rfl, fun result isDone => by cases isDone⟩
  | next goesOn => exact .inr ⟨_, _, rfl, goesOn⟩

/-- A program that asks comes to its end only through an answer. -/
theorem of_ask_done {request : I.Request} {rest : I.Answer request → Program I α}
    {said : List (Exchange I)} {result : α}
    (leaves : (Program.ask request rest).Leaves said (.done result)) :
    ∃ answer since, said = ⟨request, answer⟩ :: since
      ∧ (rest answer).Leaves since (.done result) := by
  rcases leaves.of_ask with ⟨_, asks⟩ | goesOn
  · exact absurd rfl (asks result)
  · exact goesOn

/-- Nothing but one program can be left. -/
theorem unique (leaves : program.Leaves before left) (leaves' : program.Leaves before left') :
    left = left' := by
  have none := leaves.goesOn (show program.Leaves (before ++ []) left' by rwa [List.append_nil])
  cases none
  rfl

/-- A program comes to its end once. -/
theorem same_end {result result' : α} {before' since' : List (Exchange I)}
    (leaves : program.Leaves before (.done result))
    (leaves' : program.Leaves before' (.done result'))
    (same : before ++ since = before' ++ since') :
    before = before' ∧ result = result' ∧ since = since' := by
  rcases List.append_eq_append_iff.mp same with ⟨more, rfl, rest⟩ | ⟨more, rfl, rest⟩
  · obtain ⟨rfl, isDone⟩ := (leaves.goesOn leaves').of_done
    cases isDone
    exact ⟨(List.append_nil _).symm, rfl, rest⟩
  · obtain ⟨rfl, isDone⟩ := (leaves'.goesOn leaves).of_done
    cases isDone
    exact ⟨List.append_nil _, rfl, rest.symm⟩

end Program.Leaves

/-- What is left of a program asks nothing else than the program. -/
theorem Program.Asks.of_leaves {I : Interface} {α : Type} {allowed : I.Request → Prop}
    {program left : Program I α} {said : List (Exchange I)} (asks : program.Asks allowed)
    (leaves : program.Leaves said left) : left.Asks allowed := by
  induction leaves with
  | nothing => exact asks
  | next _ ih =>
      cases asks with
      | ask _ goesOn => exact ih (goesOn _)

/-- What is known of all that a program asks is known of what it goes through. -/
theorem Program.AsksAtMost.of_leaves {I : Interface} {α : Type} {allowed : I.Request → Prop}
    {bound : Nat} {program left : Program I α} {said : List (Exchange I)}
    (asks : program.AsksAtMost allowed bound) (leaves : program.Leaves said left) :
    said.length ≤ bound ∧ ∀ exchange ∈ said, allowed exchange.request := by
  induction leaves generalizing bound with
  | nothing => exact ⟨Nat.zero_le _, nofun⟩
  | next _ ih =>
      cases asks with
      | ask isAllowed goesOn =>
          obtain ⟨few, each⟩ := ih (goesOn _)
          exact ⟨Nat.succ_le_succ few, List.forall_mem_cons.mpr ⟨isAllowed, each⟩⟩

/-- What is known of every result is known of the one that a program comes to. -/
theorem Program.Ends.of_leaves {I : Interface} {α : Type} {holds : α → Prop}
    {program : Program I α} {said : List (Exchange I)} {result : α}
    (ends : program.Ends (fun _ _ => True) holds) (leaves : program.Leaves said (.done result)) : holds result := by
  induction ends generalizing said with
  | done held =>
      cases leaves
      exact held
  | ask _ ih =>
      cases leaves with
      | next goesOn => exact ih _ trivial goesOn

namespace Host

open Disk (InOrder Path)

/-! ## Faults -/

/-- A failure that a call on the disk meets with. -/
structure Fault where
  errno : Disk.Errno
  /-- What has been written when the writing of a content fails, if anything. -/
  part : Option String

namespace Fault

/-- Whether faults befall a call: all but the closing of a file and the removal of an entry. -/
def befalls : Disk.Call → Bool
  | .close _ | .unlink _ => false
  | _ => true

/-- What a call leaves of the disk that a fault befalls. -/
def leaves (fault : Fault) (call : Disk.Call) (disk : Disk) : Disk :=
  match call, fault.part with
  | .write handle _, some part => disk.setContent handle part
  | _, _ => disk

theorem fileAt?_leaves (fault : Fault) (call : Disk.Call) (disk : Disk) (path : Path) :
    (fault.leaves call disk).fileAt? path = disk.fileAt? path := by
  unfold leaves
  split
  · exact Disk.fileAt?_setContent _ _ _ _
  · rfl

end Fault

/-- How a request is answered on a machine, and what becomes of the machine: as the machine answers
it, or as a call that a fault befalls. -/
inductive Replies (machine : Machine) : (request : Request) → request.Answer → Machine → Prop
  | answers (request : Request) :
      Replies machine request (Machine.answer request machine).1 (Machine.answer request machine).2
  | fails {call : Disk.Call} (befalls : Fault.befalls call = true) (fault : Fault) :
      Replies machine (.disk call) (.error fault.errno)
        { machine with disk := fault.leaves call machine.disk }

namespace Replies

variable {machine machine' : Machine} {request : Request} {answer : request.Answer}

/-- The disk stays as it is unless a call is made. -/
theorem same_disk (replies : Replies machine request answer machine')
    (noCall : ∀ call, request ≠ .disk call) : machine'.disk = machine.disk := by
  cases replies with
  | fails => exact absurd rfl (noCall _)
  | answers =>
      cases request with
      | disk call => exact absurd rfl (noCall call)
      | readLine =>
          unfold Machine.answer
          dsimp only
          split <;> rfl
      | _ => rfl

theorem inOrder (replies : Replies machine request answer machine') (kept : InOrder machine.disk) :
    InOrder machine'.disk := by
  cases replies with
  | fails _ fault =>
      show InOrder (fault.leaves _ machine.disk)
      unfold Fault.leaves
      split
      · exact kept.setContent _ _
      · exact kept
  | answers =>
      by_cases isCall : ∃ call, request = .disk call
      · obtain ⟨call, rfl⟩ := isCall
        exact kept.answer call
      · rw [Replies.same_disk (.answers request) fun call same => isCall ⟨call, same⟩]
        exact kept

theorem nextIdentity_le (replies : Replies machine request answer machine') :
    machine.disk.nextIdentity ≤ machine'.disk.nextIdentity := by
  cases replies with
  | answers => exact Machine.nextIdentity_le_answer _ _
  | fails _ fault =>
      show _ ≤ (fault.leaves _ machine.disk).nextIdentity
      unfold Fault.leaves
      split <;> exact Nat.le_refl _

/-- Who creates a file is told the next identity, which is not given again. -/
theorem of_openNew {path : Path} {identity : Nat}
    (replies : Replies machine (.disk (.openNew path)) (.ok identity) machine') :
    identity = machine.disk.nextIdentity
      ∧ machine'.disk.nextIdentity = machine.disk.nextIdentity + 1 := by
  generalize isAnswer : (Except.ok identity : Except Disk.Errno Nat) = answer at replies
  cases replies with
  | fails => cases isAnswer
  | answers =>
      cases opens : machine.disk.openNew path with
      | error errno =>
          rw [Machine.answer_openNew_error opens] at isAnswer
          cases isAnswer
      | ok opened =>
          obtain ⟨handle, disk⟩ := opened
          rw [Machine.answer_openNew_ok opens] at isAnswer ⊢
          cases isAnswer
          exact ⟨Disk.openNew_handle opens, Disk.nextIdentity_openNew opens⟩

end Replies

/-! ## Turns -/

/-- What happens next to a pool. -/
inductive Turn where
  /-- The program at a place makes a step. -/
  | goes (place : Nat)
  /-- A fault befalls the call that the program at a place makes next. -/
  | fails (place : Nat) (fault : Fault)
  /-- Some milliseconds pass. -/
  | passes (milliseconds : Nat)

namespace Pool

variable {α : Type}

/-- The pool after a turn. -/
def turn (pool : Pool α) : Turn → Pool α
  | .goes place => pool.step place
  | .fails place fault =>
      match pool.threads[place]? with
      | some ⟨.ask (.disk call) next, _⟩ =>
          if Fault.befalls call then
            { pool.setThread place ⟨next (.error fault.errno), false⟩ with
              machine := { pool.machine with disk := fault.leaves call pool.machine.disk } }
          else pool
      | _ => pool
  | .passes milliseconds =>
      { pool with machine := { pool.machine with clock := pool.machine.clock + milliseconds } }

/-- Whether the program at a place waits before a section. -/
def waits (pool : Pool α) (place : Nat) : Bool :=
  pool.threads[place]?.any Thread.queued

/-- Who asks what in a turn, and what is answered. -/
def exchange? (pool : Pool α) : Turn → Option (Nat × Exchange interface)
  | .goes place =>
      match pool.program? place with
      | some (.ask request _) =>
          if (pool.step place).waits place then none
          else some (place, ⟨request, (Machine.answer request pool.machine).1⟩)
      | _ => none
  | .fails place fault =>
      match pool.program? place with
      | some (.ask (.disk call) _) =>
          if Fault.befalls call then some (place, ⟨.disk call, .error fault.errno⟩) else none
      | _ => none
  | .passes _ => none

/-- The pool after some turns. -/
def afterTurns (pool : Pool α) (turns : List Turn) : Pool α :=
  turns.foldl turn pool

/-- What the program at a place has been through after some turns. -/
def through (place : Nat) : Pool α → List Turn → List (Exchange interface)
  | _, [] => []
  | pool, turn :: turns =>
      (match pool.exchange? turn with
        | some (asked, exchange) => if asked = place then [exchange] else []
        | none => []) ++ through place (pool.turn turn) turns

/-- What a turn can do to a pool: at most one program asks something and goes on. -/
inductive Turns (pool : Pool α) (turn : Turn) : Prop
  | idle (nothing : pool.exchange? turn = none)
      (programs : ∀ place, (pool.turn turn).program? place = pool.program? place)
      (disk : (pool.turn turn).machine.disk = pool.machine.disk)
  | asks {place : Nat} {request : Request} {next : request.Answer → Program interface α}
      {answer : request.Answer} (asked : pool.exchange? turn = some (place, ⟨request, answer⟩))
      (isNext : pool.program? place = some (.ask request next))
      (replies : Replies pool.machine request answer (pool.turn turn).machine)
      (programs : ∀ other, (pool.turn turn).program? other
        = if other = place then some (next answer) else pool.program? other)

section

variable {pool : Pool α}

theorem afterTurns_concat (pool : Pool α) (turns : List Turn) (turn : Turn) :
    pool.afterTurns (turns ++ [turn]) = (pool.afterTurns turns).turn turn := by
  rw [afterTurns, List.foldl_append]
  rfl

theorem through_concat (pool : Pool α) (place : Nat) (turns : List Turn) (turn : Turn) :
    pool.through place (turns ++ [turn])
      = pool.through place turns ++ (pool.afterTurns turns).through place [turn] := by
  induction turns generalizing pool with
  | nil => rfl
  | cons first turns ih =>
      rw [List.cons_append, through, ih, ← List.append_assoc]
      rfl

theorem through_of_exchange {place : Nat} {turn : Turn} {exchange : Exchange interface}
    (asked : pool.exchange? turn = some (place, exchange)) (other : Nat) :
    pool.through other [turn] = if other = place then [exchange] else [] := by
  simp only [through, asked, List.append_nil, eq_comm]

theorem through_of_none {turn : Turn} (nothing : pool.exchange? turn = none) (place : Nat) :
    pool.through place [turn] = [] := by
  simp only [through, nothing, List.append_nil]

theorem waits_setThread {place : Nat} {old thread : Thread α}
    (there : pool.threads[place]? = some old) (sections : Mutex Section Nat) (machine : Machine) :
    waits { pool.setThread place thread with sections, machine } place = thread.queued := by
  have inside : place < pool.threads.length := (List.getElem?_eq_some_iff.mp there).1
  show ((pool.threads.set place thread)[place]?).any Thread.queued = _
  rw [List.getElem?_set_self inside, Option.any_some]

theorem Turns.of_same {turn : Turn} (nothing : pool.exchange? turn = none)
    (same : pool.turn turn = pool) : Turns pool turn :=
  .idle nothing (fun _ => by rw [same]) (by rw [same])

/-- A program that makes a step asks and goes on, or waits before a section, or has ended. -/
theorem goes_turns (pool : Pool α) (place : Nat) : Turns pool (.goes place) := by
  cases there : pool.threads[place]? with
  | none =>
      have isNone : pool.program? place = none := by rw [program?, there, Option.map_none]
      exact .of_same (by rw [exchange?, isNone]) (by rw [turn, step, there])
  | some thread =>
      obtain ⟨program, queued⟩ := thread
      have isProgram : pool.program? place = some program := by rw [program?, there, Option.map_some]
      cases program with
      | done result => exact .of_same (by rw [exchange?, isProgram]) (by rw [turn, step, there])
      | ask request next =>
          have steps : pool.step place = pool.ask place queued request next := by rw [step, there]
          have asks (sections : Mutex Section Nat)
              (goesOn : pool.ask place queued request next
                = { pool.setThread place ⟨next (Machine.answer request pool.machine).1, false⟩ with
                    sections, machine := (Machine.answer request pool.machine).2 }) :
              Turns pool (.goes place) := by
            have isAfter := steps.trans goesOn
            have asked : pool.exchange? (.goes place)
                = some (place, ⟨request, (Machine.answer request pool.machine).1⟩) := by
              simp only [exchange?, isProgram]
              rw [isAfter, waits_setThread there]
              rfl
            refine .asks asked isProgram ?_ ?_
            · rw [turn, isAfter]
              exact .answers request
            · rw [turn, isAfter]
              exact program?_setThread there _ _ _
          cases request with
          | enter key =>
              unfold ask at steps asks
              dsimp only at steps asks
              generalize (if queued = true then pool.sections else pool.sections.enter key place)
                = sections at steps asks
              split at steps
              next holds => exact asks sections (by rw [if_pos holds]; rfl)
              next =>
                refine .idle ?_ (fun other => ?_) (by rw [turn, steps]; rfl)
                · simp only [exchange?, isProgram]
                  rw [steps, waits_setThread there, if_pos rfl]
                · rw [turn, steps]
                  refine (program?_setThread there _ _ _ other).trans ?_
                  split
                  next same => rw [same, isProgram]
                  next => rfl
          | leave key => exact asks _ rfl
          | _ => exact asks pool.sections rfl

/-- A fault befalls a call, or nothing happens. -/
theorem fails_turns (pool : Pool α) (place : Nat) (fault : Fault) :
    Turns pool (.fails place fault) := by
  cases there : pool.threads[place]? with
  | none =>
      have isNone : pool.program? place = none := by rw [program?, there, Option.map_none]
      exact .of_same (by rw [exchange?, isNone]) (by rw [turn, there])
  | some thread =>
      obtain ⟨program, queued⟩ := thread
      have isProgram : pool.program? place = some program := by rw [program?, there, Option.map_some]
      cases program with
      | done result => exact .of_same (by rw [exchange?, isProgram]) (by rw [turn, there])
      | ask request next =>
          cases request with
          | disk call =>
              cases befalls : Fault.befalls call with
              | false =>
                  exact .of_same (by simp [exchange?, isProgram, befalls])
                    (by simp [turn, there, befalls])
              | true =>
                  have isAfter : pool.turn (.fails place fault)
                      = { pool.setThread place ⟨next (.error fault.errno), false⟩ with
                          machine :=
                            { pool.machine with disk := fault.leaves call pool.machine.disk } } := by
                    simp [turn, there, befalls]
                  have asked : pool.exchange? (.fails place fault)
                      = some (place, ⟨.disk call, .error fault.errno⟩) := by
                    simp [exchange?, isProgram, befalls]
                  refine .asks asked isProgram ?_ ?_
                  · rw [isAfter]
                    exact .fails befalls fault
                  · rw [isAfter]
                    exact program?_setThread there _ _ _
          | _ => exact .of_same (by rw [exchange?, isProgram]) (by rw [turn, there])

/-- **A turn** does nothing to the programs of a pool, or lets one of them ask and go on. -/
theorem turn_turns (pool : Pool α) (turn : Turn) : Turns pool turn := by
  cases turn with
  | goes place => exact pool.goes_turns place
  | fails place fault => exact pool.fails_turns place fault
  | passes milliseconds => exact .idle rfl (fun _ => rfl) rfl

/-- What a program has been through tells what is left of it. -/
theorem leaves_through (pool : Pool α) (turns : List Turn) (place : Nat)
    {program : Program interface α} (there : pool.program? place = some program) :
    ∃ left, (pool.afterTurns turns).program? place = some left
      ∧ program.Leaves (pool.through place turns) left := by
  induction turns using List.reverseRecOn with
  | nil => exact ⟨program, there, .nothing program⟩
  | append_singleton turns turn ih =>
      obtain ⟨left, isLeft, leaves⟩ := ih
      rw [afterTurns_concat, through_concat]
      cases (pool.afterTurns turns).turn_turns turn with
      | idle nothing programs _ =>
          rw [programs, through_of_none nothing, List.append_nil]
          exact ⟨left, isLeft, leaves⟩
      | @asks asking request next answer asked isNext _ programs =>
          rw [programs, through_of_exchange asked]
          by_cases isTurn : place = asking
          · subst isTurn
            rw [isLeft] at isNext
            cases isNext
            rw [if_pos rfl, if_pos rfl]
            exact ⟨next answer, rfl, leaves.concat answer⟩
          · rw [if_neg isTurn, if_neg isTurn, List.append_nil]
            exact ⟨left, isLeft, leaves⟩

end

end Pool

end Host

end DocStore
