import DocStore.Database.Session
import DocStore.Proofs.Database.Requests
import DocStore.Proofs.Files.Requests
/-!
# Operations that only read

An operation that concerns no collection or only tells of one asks the storage for nothing but what
reads (`perform_reads`), takes no lock and leaves everything as it is, on any machine and whatever
is on its disk (`Session.attempt_reads`).
-/

set_option autoImplicit false

namespace DocStore

/-- A storage in memory is left as it is by what reads. -/
theorem Memory.perform_reads {content : Content} (memory : Memory content)
    {op : Storage.Op content} (reads : op.Reads) : (memory.perform op).2 = memory := by
  cases op with
  | «exists» | collections | get => rfl
  | scan name | checks name =>
      simp only [Memory.perform]
      split <;> rfl
  | create | drop | put | replace | deleteMatching | deleteById | addCheck | dropCheck | close =>
      exact reads.elim

theorem Memories.put_self {content : Content} (memories : Memories) (owner : Nat) :
    memories.put owner (memories content owner) = memories := by
  funext content' owner'
  rw [Memories.put]
  split
  next same =>
    obtain ⟨rfl, rfl⟩ := same
    rfl
  next => rfl

namespace Database

open Host (Machine)

/-- A request to the storage that reads. -/
def Request.Reads : Request .json → Prop
  | .store op => op.Reads ∧ op.Fits
  | _ => False

theorem reads_store {op : Storage.Op .json} (reads : op.Reads) (fits : op.Fits) :
    (storeOn op).Asks Request.Reads := .ask ⟨reads, fits⟩ fun _ => .done _

section

variable {name : String} (named : Files.Named name)
include named

theorem reads_scan (query : Json) : (Documents.scan name query).Asks Request.Reads := by
  refine .bind (reads_store trivial named) fun found => ?_
  cases found with
  | true => exact reads_store trivial named
  | false => exact .pure []

theorem reads_findById (id : String) : (Documents.findById name id).Asks Request.Reads := by
  refine .bind (reads_store trivial named) fun found => ?_
  cases found with
  | true => exact reads_store trivial named
  | false => exact .pure none

end

theorem reads_ofExcept_bind {α β : Type} {result : Except Failure α} {next : α → Action β}
    (goesOn : ∀ value, result = .ok value → (next value).Asks Request.Reads) :
    (Attempt.ofExcept result >>= next).Asks Request.Reads := by
  cases result with
  | ok value => exact goesOn value rfl
  | error failure => exact .fail failure

/-- **An operation that may change no collection** only reads. -/
theorem perform_reads {operation : Operation} (reads : operation.changed? = none) :
    (perform operation).Asks Request.Reads := by
  cases operation with
  | listCollections => exact reads_store trivial trivial
  | collectionExists collection =>
      exact reads_ofExcept_bind fun name isName =>
        reads_store trivial (named_of_checkedName isName)
  | find collection query =>
      rw [perform, cursor_eq]
      exact reads_ofExcept_bind fun found isCursor => reads_scan (named_of_cursorOf isCursor) _
  | findOne collection query | count collection query =>
      rw [perform, cursor_eq]
      exact reads_ofExcept_bind fun found isCursor =>
        .bind (reads_scan (named_of_cursorOf isCursor) _) fun _ => .pure _
  | findOneById collection id =>
      exact reads_ofExcept_bind fun name isName => reads_ofExcept_bind fun id _ =>
        reads_findById (named_of_checkedName isName) id
  | listConstraints collection =>
      exact reads_ofExcept_bind fun name isName =>
        .bind (reads_store trivial (named_of_checkedName isName)) fun _ =>
          .bind (.ofExcept _) fun _ => .pure _
  | createCollection _ | dropCollection _ | insert _ _ | save _ _ | remove _ _ | removeOne _ _
  | removeOneById _ _ | addConstraint _ _ | removeConstraint _ _ => cases reads

namespace Session

/-- A request that reads leaves the machine as it is. -/
theorem answer_reads (session : Session) (machine : Machine) {request : Request .json}
    (reads : request.Reads) : (machine.run (session.meaning request)).2 = machine := by
  cases request with
  | store op =>
      show (machine.run (Session.store session.number op session.backend)).2 = machine
      cases session.backend with
      | memory =>
          have same := Memory.perform_reads (machine.memories .json session.number) reads.1
          have put : machine.memories.put session.number (machine.memories .json session.number)
              = machine.memories := machine.memories.put_self session.number
          show { machine with
            memories := machine.memories.put session.number
              (Memory.perform (machine.memories .json session.number) op).2 } = machine
          rw [same, put]
      | files store =>
          exact Program.Asks.run_same (store.looks_perform reads.1)
            fun _ looks => looks.answer_snd machine
  | lock _ | unlock _ | tell _ | generate | giveWay => exact reads.elim

/-- **An operation that only reads** leaves the machine as it is. -/
theorem attempt_reads (session : Session) (machine : Machine) {operation : Operation}
    (reads : operation.changed? = none) :
    (machine.attempt (session.perform operation)).2 = machine := by
  refine (congrArg Prod.snd (Program.run_interpret (I := interface .json) session.meaning
    Machine.answer (Database.perform operation).toProgram machine)).trans ?_
  exact Program.Asks.run_same (perform_reads reads) fun _ isRead =>
    session.answer_reads machine isRead

end Session

end Database

end DocStore
