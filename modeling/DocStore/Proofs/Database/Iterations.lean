import DocStore.Proofs.Database.Selection
/-!
# What iterations of cursors give

A cursor asks nothing when it is made (`attempt_cursor`), and nothing before an iteration of it is
asked for its first document.  `Begins.iterates` says what iterations give, however their calls stand
among operations of every kind, among calls of other iterations, and among whole lists and first
documents taken of cursors: call after call the documents that were selected when the iteration was
first called, and then nothing more.  The moment of that call is `beforeCalls`, and the calls up to
now are counted by `callsOf`.

The invariant is `Iteration.Left`, which says what an iteration is after so many calls;
`Iteration.Left.next` is its step.
-/

set_option autoImplicit false

namespace DocStore.Database

open Host (Machine)

/-! ## Events and what they lead to -/

/-- What is done with a database and its cursors. -/
inductive Event where
  /-- An operation. -/
  | operate (operation : Operation)
  /-- A call for the next document of the iteration of a number. -/
  | next (number : Nat)
  /-- All documents of the cursor of a number. -/
  | toList (number : Nat)
  /-- The first document of the cursor of a number. -/
  | first (number : Nat)

namespace Event

/-- The operation of an event that is one. -/
def operation? : Event → Option Operation
  | operate operation => some operation
  | _ => none

/-- Whether an event is a call of the iteration of a number. -/
def isCall (number : Nat) : Event → Bool
  | next other => other == number
  | _ => false

end Event

/-- The operations among events. -/
def operationsOf (events : List Event) : List Operation :=
  events.filterMap Event.operation?

/-- The events before the first call of an iteration. -/
def beforeCalls (number : Nat) (events : List Event) : List Event :=
  events.takeWhile fun event => !event.isCall number

/-- How often an iteration is called. -/
def callsOf (number : Nat) (events : List Event) : Nat :=
  events.countP (Event.isCall number)

/-- A machine together with the iterations that are open on it. -/
structure Iterating where
  machine : Machine
  iterations : Nat → Iteration

namespace Session

/-- Ask an iteration for its next document. -/
def call (session : Session) (iterating : Iterating) (number : Nat) :
    Except Failure (Option Json) × Iterating :=
  match iterating.machine.attempt (session.run (iterating.iterations number).next) with
  | (.ok (reply, iteration), machine) =>
      (reply, ⟨machine, Function.update iterating.iterations number iteration⟩)
  | (.error failure, machine) => (.error failure, { iterating with machine })

/-- What an event leads to, with a cursor for every number. -/
def advance (session : Session) (cursors : Nat → Cursor) (iterating : Iterating) :
    Event → Iterating
  | .operate operation =>
      { iterating with machine := (iterating.machine.attempt (session.perform operation)).2 }
  | .next number => (session.call iterating number).2
  | .toList number =>
      { iterating with
        machine := (iterating.machine.attempt (session.run (cursors number).toList)).2 }
  | .first number =>
      { iterating with
        machine := (iterating.machine.attempt (session.run (cursors number).first)).2 }

/-- What events lead to, one after the other.  At first nothing has been asked of any iteration. -/
def advanced (session : Session) (machine : Machine) (cursors : Nat → Cursor)
    (events : List Event) : Iterating :=
  events.foldl (session.advance cursors) ⟨machine, fun number => .fresh (cursors number)⟩

end Session

/-! ## The moment of the first call -/

section

variable {number : Nat} {events : List Event} {event : Event}

theorem operationsOf_concat_operate (events : List Event) (operation : Operation) :
    operationsOf (events ++ [.operate operation]) = operationsOf events ++ [operation] := by
  rw [operationsOf, List.filterMap_append]
  rfl

theorem operationsOf_concat (isOther : event.operation? = none) :
    operationsOf (events ++ [event]) = operationsOf events := by
  rw [operationsOf, List.filterMap_append, List.filterMap_cons_none isOther]
  exact List.append_nil _

theorem callsOf_concat (events : List Event) (event : Event) :
    callsOf number (events ++ [event])
      = callsOf number events + if event.isCall number then 1 else 0 := by
  rw [callsOf, List.countP_append, List.countP_singleton]
  rfl

/-- Before it is called, all is before the first call of an iteration. -/
theorem beforeCalls_eq_self (uncalled : callsOf number events = 0) :
    beforeCalls number events = events := by
  refine List.takeWhile_eq_self_iff.mpr fun event member => ?_
  simpa using List.countP_eq_zero.mp uncalled event member

theorem beforeCalls_concat_of_called (called : callsOf number events ≠ 0) (event : Event) :
    beforeCalls number (events ++ [event]) = beforeCalls number events := by
  induction events with
  | nil => exact absurd rfl called
  | cons first rest ih =>
      rw [beforeCalls, beforeCalls, List.cons_append, List.takeWhile_cons, List.takeWhile_cons]
      split
      next notCall =>
        refine congrArg (first :: ·) (ih fun uncalled => called ?_)
        rw [callsOf, List.countP_cons_of_neg (by simpa using notCall)]
        exact uncalled
      next => rfl

/-- What happens after the first call is not before it. -/
theorem beforeCalls_concat_call (uncalled : callsOf number events = 0) :
    beforeCalls number (events ++ [.next number]) = events := by
  have all := beforeCalls_eq_self uncalled
  rw [beforeCalls] at all ⊢
  rw [List.takeWhile_append, all, if_pos rfl, List.takeWhile_cons_of_neg (by simp [Event.isCall]),
    List.append_nil]

end

/-! ## One iteration -/

/-- What is left of an iteration that gives some documents, after so many calls. -/
def Iteration.Left (cursor : Cursor) (documents : List Json) : Nat → Iteration → Prop
  | 0, iteration => iteration = .fresh cursor
  | calls + 1, .running rest => rest = documents.drop (calls + 1)
  | calls + 1, .finished => documents.drop (calls + 1) = []
  | _ + 1, .fresh _ => False

theorem Iteration.give_drop (documents : List Json) (calls : Nat) :
    ∃ iteration, Iteration.give (documents.drop calls) = (documents[calls]?, iteration)
      ∧ ∀ cursor, Iteration.Left cursor documents (calls + 1) iteration := by
  have tail : documents.drop (calls + 1) = (documents.drop calls).tail := by
    rw [List.tail_drop]
  have head : documents[calls]? = (documents.drop calls).head? := List.head?_drop.symm
  cases isRest : documents.drop calls with
  | nil =>
      rw [isRest] at tail head
      exact ⟨.finished, by rw [head]; rfl, fun _ => tail⟩
  | cons document rest =>
      rw [isRest] at tail head
      exact ⟨.running rest, by rw [head]; rfl, fun _ => tail.symm⟩

section

variable {session : Session} {machine : Machine} {cursor : Cursor} {documents : List Json}

/-- **A call gives the next document** and leaves the rest; the first call takes the documents that
the cursor has then. -/
theorem Iteration.Left.next {calls : Nat} {iteration : Iteration}
    (left : iteration.Left cursor documents calls)
    (taken : calls = 0 →
      machine.attempt (session.run cursor.toList) = (.ok documents, machine)) :
    ∃ iteration', machine.attempt (session.run iteration.next)
        = (.ok (.ok documents[calls]?, iteration'), machine)
      ∧ iteration'.Left cursor documents (calls + 1) := by
  obtain ⟨iteration', gives, leaves⟩ := Iteration.give_drop documents calls
  refine ⟨iteration', ?_, leaves cursor⟩
  rw [Machine.attempt_eq_eval, Session.eval_run]
  match calls, iteration, left with
  | 0, _, rfl =>
      have scanned := taken rfl
      rw [Machine.attempt_eq_eval, Session.eval_run] at scanned
      rw [Iteration.next, Attempt.eval_bind_ok (Attempt.eval_outcome _ _ _), scanned]
      rw [List.drop_zero] at gives
      simp only [gives]
      rfl
  | calls + 1, .running rest, isRest =>
      rw [Iteration.next, isRest, gives]
      rfl
  | calls + 1, .finished, isEmpty =>
      rw [isEmpty] at gives
      obtain ⟨isNone, rfl⟩ := Prod.mk.inj gives
      rw [← isNone]
      rfl

end

/-! ## At every moment -/

namespace Session

variable {session : Session} {machine : Machine} {keeper : Keeper}

/-- A cursor asks nothing when it is made; it keeps the name and the normal form of the query. -/
theorem attempt_cursor (session : Session) (machine : Machine) (collection query : Caller.Value) :
    machine.attempt (session.run (cursor collection query))
      = (cursorOf collection query, machine) := by
  rw [Machine.attempt_eq_eval, eval_run, cursor_eq]
  exact Attempt.eval_ofExcept _ _ _

/-- What is found with a query is what its cursor lists. -/
theorem attempt_find {collection query : Caller.Value} {cursor : Cursor}
    (isCursor : cursorOf collection query = .ok cursor) (machine : Machine) :
    machine.attempt (session.perform (.find collection query))
      = machine.attempt (session.run cursor.toList) := by
  rw [Machine.attempt_eq_eval, Machine.attempt_eq_eval, perform, eval_run, eval_run,
    Database.perform, cursor_eq, isCursor]
  exact Attempt.eval_bind_ok (Attempt.eval_ofExcept _ _ _)

/-- The documents of a cursor after some operations. -/
def documentsAfter (machine : Machine) (keeper : Keeper) (operations : List Operation)
    (cursor : Cursor) : List Json :=
  (Contents.ofKeeper keeper (reached keeper machine.generator (Memory.empty, machine.calls)
    operations).1).selected cursor.collection cursor.query

section

variable (begins : session.Begins machine keeper) {collection query : Caller.Value}
  {cursor : Cursor} (isCursor : cursorOf collection query = .ok cursor)
  {operations : List Operation} (distinct : ∀ operation ∈ operations, operation.Distinct)
include begins isCursor distinct

/-- A cursor lists the documents that are selected at the moment. -/
theorem Begins.attempt_toList :
    (session.after machine operations).attempt (session.run cursor.toList)
      = (.ok (documentsAfter machine keeper operations cursor),
          session.after machine operations) := by
  have reads : ((session.after machine operations).attempt
      (session.perform (.find collection query))).2 = session.after machine operations :=
    session.attempt_reads _ rfl
  have told := begins.attempt_eq distinct (show (Operation.find collection query).Distinct from trivial)
  rw [outcome, isCursor] at told
  rw [← attempt_find isCursor]
  exact Prod.ext told reads

theorem Begins.attempt_first :
    (session.after machine operations).attempt (session.run cursor.first)
      = (.ok (documentsAfter machine keeper operations cursor).head?,
          session.after machine operations) := by
  have lists := begins.attempt_toList isCursor distinct
  rw [Machine.attempt_eq_eval, eval_run] at lists ⊢
  rw [Cursor.first, Attempt.eval_bind_ok lists]
  rfl

end

/-- The documents that an iteration gives: those that its cursor had when it was first called. -/
def documentsOf (machine : Machine) (keeper : Keeper) (cursors : Nat → Cursor)
    (events : List Event) (number : Nat) : List Json :=
  documentsAfter machine keeper (operationsOf (beforeCalls number events)) (cursors number)

/-- What events have led to: the machine is where their operations lead, and each iteration has
given so many of its documents. -/
structure Follows (session : Session) (machine : Machine) (keeper : Keeper)
    (cursors : Nat → Cursor) (events : List Event) (iterating : Iterating) : Prop where
  isMachine : iterating.machine = session.after machine (operationsOf events)
  left : ∀ number, (iterating.iterations number).Left (cursors number)
    (documentsOf machine keeper cursors events number) (callsOf number events)

section

variable {cursors : Nat → Cursor} {events : List Event} {event : Event} {number : Nat}
  {iteration : Iteration}

/-- What is done elsewhere leaves an iteration as it is, and the documents that it gives. -/
theorem left_concat (notCall : event.isCall number = false)
    (left : iteration.Left (cursors number) (documentsOf machine keeper cursors events number)
      (callsOf number events)) :
    iteration.Left (cursors number) (documentsOf machine keeper cursors (events ++ [event]) number)
      (callsOf number (events ++ [event])) := by
  have same : callsOf number (events ++ [event]) = callsOf number events := by
    rw [callsOf_concat, notCall]
    rfl
  rw [same]
  by_cases called : callsOf number events = 0
  · rw [called] at left ⊢
    exact left
  · rw [documentsOf, beforeCalls_concat_of_called called]
    exact left

/-- A call changes no documents that are to be given. -/
theorem documentsOf_concat_call :
    documentsOf machine keeper cursors (events ++ [.next number]) number
      = documentsOf machine keeper cursors events number := by
  unfold documentsOf
  by_cases called : callsOf number events = 0
  · rw [beforeCalls_concat_call called, beforeCalls_eq_self called]
  · rw [beforeCalls_concat_of_called called]

end

section

variable (begins : session.Begins machine keeper) {cursors : Nat → Cursor}
  (found : ∀ number, ∃ collection query, cursorOf collection query = .ok (cursors number))
  {events : List Event}
  (distinct : ∀ operation ∈ operationsOf events, operation.Distinct)
  {iterating : Iterating} (follows : session.Follows machine keeper cursors events iterating)
include begins found distinct follows

/-- **A call** is told the next of the documents of its iteration, and only that iteration goes on.
-/
theorem Follows.call (number : Nat) :
    (session.call iterating number).1
        = .ok (documentsOf machine keeper cursors events number)[callsOf number events]?
      ∧ session.Follows machine keeper cursors (events ++ [.next number])
          (session.call iterating number).2 := by
  have taken : callsOf number events = 0 →
      iterating.machine.attempt (session.run (cursors number).toList)
        = (.ok (documentsOf machine keeper cursors events number), iterating.machine) := by
    intro uncalled
    obtain ⟨collection, query, isCursor⟩ := found number
    rw [documentsOf, beforeCalls_eq_self uncalled, follows.isMachine]
    exact begins.attempt_toList isCursor distinct
  obtain ⟨iteration, told, left⟩ := (follows.left number).next taken
  have called : session.call iterating number
      = (.ok (documentsOf machine keeper cursors events number)[callsOf number events]?,
          ⟨iterating.machine, Function.update iterating.iterations number iteration⟩) := by
    rw [Session.call, told]
  rw [called]
  refine ⟨rfl, ?_, fun other => ?_⟩
  · exact follows.isMachine.trans (congrArg _ (operationsOf_concat rfl).symm)
  · show Iteration.Left _ _ _ (Function.update iterating.iterations number iteration other)
    by_cases same : other = number
    · subst same
      have calls : callsOf other (events ++ [.next other]) = callsOf other events + 1 := by
        rw [callsOf_concat, if_pos (by simp [Event.isCall])]
      rw [Function.update_self, calls, documentsOf_concat_call]
      exact left
    · rw [Function.update_of_ne same]
      exact left_concat (by simpa [Event.isCall] using Ne.symm same) (follows.left other)

/-- **One event** leads on. -/
theorem Follows.advance (event : Event) :
    session.Follows machine keeper cursors (events ++ [event])
      (session.advance cursors iterating event) := by
  cases event with
  | next number => exact (follows.call begins found distinct number).2
  | operate operation =>
      refine ⟨?_, fun number => left_concat rfl (follows.left number)⟩
      rw [operationsOf_concat_operate, after_concat, ← follows.isMachine]
      rfl
  | toList number =>
      obtain ⟨collection, query, isCursor⟩ := found number
      have lists := begins.attempt_toList isCursor distinct
      rw [← follows.isMachine] at lists
      refine ⟨?_, fun number => left_concat rfl (follows.left number)⟩
      rw [operationsOf_concat rfl, ← follows.isMachine, Session.advance, lists]
  | first number =>
      obtain ⟨collection, query, isCursor⟩ := found number
      have lists := begins.attempt_first isCursor distinct
      rw [← follows.isMachine] at lists
      refine ⟨?_, fun number => left_concat rfl (follows.left number)⟩
      rw [operationsOf_concat rfl, ← follows.isMachine, Session.advance, lists]

end

section

variable (begins : session.Begins machine keeper) {cursors : Nat → Cursor}
  (found : ∀ number, ∃ collection query, cursorOf collection query = .ok (cursors number))
  {events : List Event}
include begins found

/-- **Events** lead where `Follows` says. -/
theorem Begins.follows (distinct : ∀ operation ∈ operationsOf events, operation.Distinct) :
    session.Follows machine keeper cursors events (session.advanced machine cursors events) := by
  induction events using List.reverseRecOn with
  | nil => exact ⟨rfl, fun _ => rfl⟩
  | append_singleton events event ih =>
      have distinctBefore : ∀ operation ∈ operationsOf events, operation.Distinct := by
        refine fun operation member => distinct operation ?_
        rw [operationsOf, List.filterMap_append]
        exact List.mem_append_left _ member
      rw [advanced, List.foldl_append]
      exact (ih distinctBefore).advance begins found distinctBefore event

end

/-- What cursors and their iterations tell after some events, by what the database reports: an
iteration what was selected when it was first called, and a list or a first document what is
selected now. -/
structure Iterates (session : Session) (machine : Machine) (cursors : Nat → Cursor)
    (contents : List Operation → Contents) (events : List Event) : Prop where
  next : ∀ number, (session.call (session.advanced machine cursors events) number).1
    = .ok ((contents (operationsOf (beforeCalls number events))).selected
        (cursors number).collection (cursors number).query)[callsOf number events]?
  toList : ∀ number, ((session.advanced machine cursors events).machine.attempt
      (session.run (cursors number).toList)).1
    = .ok ((contents (operationsOf events)).selected (cursors number).collection
        (cursors number).query)
  first : ∀ number, ((session.advanced machine cursors events).machine.attempt
      (session.run (cursors number).first)).1
    = .ok ((contents (operationsOf events)).selected (cursors number).collection
        (cursors number).query).head?

theorem checkedName_eq_ok_iff {collection : Caller.Value} {name : String} :
    checkedName collection = .ok name
      ↔ collection = .ofString name ∧ Collection.nameFault? name = none := by
  constructor
  · intro isName
    unfold checkedName at isName
    split at isName
    next => cases isName
    next text isText =>
      split at isName
      next => cases isName
      next noFault =>
        obtain rfl := Except.ok.inj isName
        cases collection with
        | scalar value =>
            cases value with
            | string _ =>
                cases isText
                exact ⟨rfl, noFault⟩
            | _ => cases isText
        | _ => cases isText
  · rintro ⟨rfl, noFault⟩
    exact checkedName_ofString (Files.named_of_nameFault? noFault)

/-- A cursor is made of the name of a collection and the normal form of a query; without a query, of
that of all documents. -/
theorem made_of_cursorOf {collection query : Caller.Value} {cursor : Cursor}
    (isCursor : cursorOf collection query = .ok cursor) :
    collection = .ofString cursor.collection
      ∧ checkedQuery (if query.isAbsent then .object false [] else query) = .ok cursor.query := by
  obtain ⟨name, isName, isCursor⟩ := Caller.bind_eq_ok isCursor
  obtain ⟨form, isForm, isCursor⟩ := Caller.bind_eq_ok isCursor
  cases isCursor
  refine ⟨(checkedName_eq_ok_iff.mp isName).1, ?_⟩
  cases query <;> exact isForm

section

variable {cabinet : Cabinet} (slotted : cabinet.Slotted keeper.slot) {name : String}

/-- A collection that does not exist has no documents. -/
theorem documents_of_not_mem
    (missing : name ∉ (Contents.ofKeeper keeper cabinet).collections) :
    (Contents.ofKeeper keeper cabinet).documents name = [] := by
  rw [mem_collections_iff, Option.not_isSome_iff_eq_none] at missing
  show listing keeper name cabinet = []
  refine List.eq_nil_iff_forall_not_mem.mpr fun document member => ?_
  obtain ⟨entry, inside, _⟩ := mem_listing.mp member
  rw [Cabinet.held, missing] at inside
  cases inside

end

/-- **Whatever happens between its calls**, an iteration gives one after the other the documents
that its cursor selected when it was first called, and then nothing more; every list and every first
document of a cursor is what it selects at that moment. -/
theorem Begins.iterates (begins : session.Begins machine keeper)
    {collections queries : Nat → Caller.Value} {cursors : Nat → Cursor}
    (found : ∀ number, ∃ asked : Machine,
      (asked.attempt (session.run (cursor (collections number) (queries number)))).1
        = .ok (cursors number))
    {events : List Event} (distinct : ∀ operation, .operate operation ∈ events → operation.Distinct) :
    (∀ number, collections number = .ofString (cursors number).collection
      ∧ checkedQuery (if (queries number).isAbsent then .object false [] else queries number)
        = .ok (cursors number).query)
    ∧ ∃ contents : List Operation → Contents, ∀ moment, moment <+: events →
        session.Reports (session.advanced machine cursors moment).machine
          (contents (operationsOf moment))
        ∧ session.Iterates machine cursors contents moment
        ∧ ∀ name, Collection.nameFault? name = none →
          session.InScanOrder machine contents (operationsOf moment) name
          ∧ (((contents (operationsOf moment)).documents name).map FileStore.documentId?).Nodup
          ∧ (name ∉ (contents (operationsOf moment)).collections →
              (contents (operationsOf moment)).documents name = []) := by
  have isCursor (number : Nat) : cursorOf (collections number) (queries number)
      = .ok (cursors number) := by
    obtain ⟨asked, isFound⟩ := found number
    rwa [attempt_cursor] at isFound
  refine ⟨fun number => made_of_cursorOf (isCursor number), fun moment =>
    .ofKeeper keeper (reached keeper machine.generator (Memory.empty, machine.calls) moment).1,
    fun moment isPrefix => ?_⟩
  have distinctThen : ∀ operation ∈ operationsOf moment, operation.Distinct := by
    intro operation member
    obtain ⟨event, inside, isOperation⟩ := List.mem_filterMap.mp member
    cases event with
    | operate other =>
        cases isOperation
        exact distinct operation (isPrefix.subset inside)
    | next | toList | first => cases isOperation
  have follows := begins.follows (fun number => ⟨_, _, isCursor number⟩) distinctThen
  have slotted : Cabinet.Slotted keeper.slot
      (reached keeper machine.generator (Memory.empty, machine.calls) (operationsOf moment)).1 :=
    slotted_reached Cabinet.slotted_empty distinctThen
  refine ⟨?_, ⟨fun number => ?_, fun number => ?_, fun number => ?_⟩, fun name _ =>
    ⟨begins.inScanOrder distinctThen name, nodup_ids_listing slotted, documents_of_not_mem⟩⟩
  · rw [follows.isMachine]
    exact begins.reports distinctThen
  · exact (follows.call begins (fun number => ⟨_, _, isCursor number⟩) distinctThen number).1
  · rw [follows.isMachine, begins.attempt_toList (isCursor number) distinctThen]
    rfl
  · rw [follows.isMachine, begins.attempt_first (isCursor number) distinctThen]
    rfl

end Session

/-- A document is stored, one iteration is called, the document is removed, and two are called. -/
def aroundRemoval : List Event :=
  [.operate (.insert (.ofString "users") ada), .next 0,
    .operate (.removeOneById (.ofString "users") (.ofString "ada")), .next 0, .next 1, .toList 1]

/-- Over files whose root is not there at first, two iterations of one cursor give what it selected
when each was first called. -/
theorem iterates_around_removal :
    newSession.Begins Machine.start (.files newStore)
      ∧ (∀ _ : Nat, ∃ asked : Machine,
          (asked.attempt (newSession.run (cursor (.ofString "users") .absent))).1
            = .ok ⟨"users", .object []⟩)
      ∧ (∀ operation, .operate operation ∈ aroundRemoval → operation.Distinct)
      ∧ ∃ contents : List Operation → Contents,
        newSession.Reports
          (newSession.advanced Machine.start (fun _ => ⟨"users", .object []⟩) aroundRemoval).machine
          (contents (operationsOf aroundRemoval))
        ∧ newSession.Iterates Machine.start (fun _ => ⟨"users", .object []⟩) contents
          aroundRemoval := by
  have found (_ : Nat) : ∃ asked : Machine,
      (asked.attempt (newSession.run (cursor (.ofString "users") .absent))).1
        = .ok ⟨"users", .object []⟩ := by
    refine ⟨Machine.start, ?_⟩
    rw [Session.attempt_cursor, cursorOf_all (Files.named_of_nameFault? (by decide))]
  have distinct : ∀ operation, .operate operation ∈ aroundRemoval → operation.Distinct := by
    simpa [aroundRemoval, Operation.Distinct] using distinct_ada
  obtain ⟨_, contents, follows⟩ := begins_start.iterates found distinct
  obtain ⟨reports, iterates, _⟩ := follows aroundRemoval (List.prefix_refl _)
  exact ⟨begins_start, found, distinct, contents, reports, iterates⟩

end DocStore.Database
