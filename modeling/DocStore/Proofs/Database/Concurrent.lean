import DocStore.Proofs.Database.Serial
/-!
# Writes at the same time

Any number of databases write below one directory, and their requests are interleaved in any way.
When all writes have ended, those on a collection that have obtained its lock have come to what they
come to when each of them is alone on the machine, one after another in the order in which they have
obtained the lock.  All others have failed and have changed nothing (`Completed.serialised`).

The clock goes on only while a job pauses.  Since there may be jobs on other collections, which pause
for as long as their options say, this does not bound the time between two steps of a job.
-/

set_option autoImplicit false

namespace DocStore.Database

open Disk (Place)
open Files (keyName)
open Host (Machine Pool)

/-- What comes of jobs at some places when each of them is alone on the machine, one after another,
with an identifier generator. -/
def aloneAt (jobs : List Job) (machine : Machine) (generator : Nat → Identifier.Generated)
    (places : List Nat) : List Reply × Machine :=
  oneByOne Job.alone (places.filterMap (jobs[·]?)) { machine with generator }

/-- Two machines tell the same about a collection, whatever is read of it, to every database that
has been opened over a directory. -/
def TellAlike (home : Place) (machine : Machine) (name : String) (first second : Machine) : Prop :=
  ∀ (session : Session) (store : FileStore), session.Opened store home machine →
    ∀ (operation : Operation) (collection : Caller.Value), operation.read? = some collection →
      checkedName collection = .ok name →
      (first.attempt (session.perform operation)).1 = (second.attempt (session.perform operation)).1

/-- What has come of jobs that have run at the same time. -/
structure Serialised (jobs : List Job) (home : Place) (machine : Machine) (schedule : List Nat)
    (replies : List Reply) : Prop where
  /-- No job obtains its lock twice. -/
  once : (takers jobs machine schedule).Nodup
  /-- On every collection the jobs come to what they come to one after another, in the order in
  which they have obtained its lock, when the identifier generator leaves some of its calls out. -/
  serial : ∀ name, ∃ index : Nat → Nat, StrictMono index
    ∧ (aloneAt jobs machine (machine.generator ∘ index) (takersOf jobs machine schedule name)).1
      = (takersOf jobs machine schedule name).filterMap (replies[·]?)
    ∧ TellAlike home machine name ((begun jobs machine).after schedule).machine
      (aloneAt jobs machine (machine.generator ∘ index) (takersOf jobs machine schedule name)).2
  /-- Jobs that have not obtained a lock have failed for their arguments or for the lock. -/
  excluded : ∀ place job reply, jobs[place]? = some job → replies[place]? = some reply →
    place ∉ takers jobs machine schedule →
    job.Excluded (fun name => takersOf jobs machine schedule name ≠ []) reply
  /-- Jobs for which a lock has not been obtained in time are not among those that change anything.
  -/
  timely : ∀ place reply failure, replies[place]? = some reply → reply.told = .error failure →
    failure.kind? = some .lockTimeout → place ∉ takers jobs machine schedule
  /-- What has been inserted or saved is found under its identifier, unless a later job removes
  documents of the collection or writes under the identifier again. -/
  lasting : ∀ name id before place since reply,
    takersOf jobs machine schedule name = before ++ place :: since →
    replies[place]? = some reply → reply.operation.Wrote name id reply.told →
    (∀ other ∈ since, ∀ reply : Reply, replies[other]? = some reply →
      ¬ reply.operation.Removes ∧ ¬ reply.operation.Wrote name id reply.told) →
    ∃ document generated isGiven record shown, reply.operation.document? = some document
      ∧ Records document generated isGiven id record ∧ Json.Alike record shown
      ∧ ∀ (session : Session) (store : FileStore), session.Opened store home machine →
        (((begun jobs machine).after schedule).machine.attempt
          (session.perform (.findOneById (.ofString name) (.ofString id)))).1 = .ok (some shown)
  /-- Of insertions of one identifier that nothing but each other can refuse exactly one
  succeeds. -/
  contested : ∀ name id, Contest replies name id (takersOf jobs machine schedule name) →
    ∃! winner, Won replies name id (takersOf jobs machine schedule name) winner
  /-- No field of a collection has two types. -/
  oneType : ∀ name, Collection.nameFault? name = none → ∃ constraints, OneType constraints
    ∧ ∀ (session : Session) (store : FileStore), session.Opened store home machine →
      (((begun jobs machine).after schedule).machine.attempt
        (session.perform (.listConstraints (.ofString name)))).1 = .ok constraints

section

variable {jobs : List Job} {replies : List Reply} {home : Place} {machine : Machine}
  {generator : Nat → Identifier.Generated} {name : String} {places : List Nat}

/-- A winner is the only one. -/
theorem Won.unique {id : String} {winner other : Nat} (won : Won replies name id places winner)
    (won' : Won replies name id places other) : other = winner := by
  by_contra differs
  obtain ⟨reply, isReply, inserts, wrote⟩ := won'.succeeded
  obtain ⟨failure, fails, _⟩ := won.others other won'.entered differs reply isReply inserts
  obtain ⟨operation, told⟩ := reply
  cases operation with
  | insert collection document => cases wrote.2.symm.trans fails
  | _ => exact inserts

/-- Where nothing is kept, jobs that are alone come to what they come to in turn. -/
theorem Turns.aloneAt_eq (turns : Turns jobs replies home machine generator name places)
    (vacant : ∃ root, Disk.Vacant machine.disk root home) :
    (aloneAt jobs machine generator places).1 = (outcomesAt jobs machine generator places).1
      ∧ Job.Holds home machine generator (outcomesAt jobs machine generator places).2
        (aloneAt jobs machine generator places).2 := by
  obtain ⟨root, vacant⟩ := vacant
  refine Job.oneByOne_alone (fun job member => ?_) ⟨rfl, rfl, _, _, unlocked_nothing, vacant.shows,
    keeps_empty (show Json.Layout.line ∈ { layout : Json.Layout | layout.Blank } from .line)⟩
  obtain ⟨place, inPlaces, isJob⟩ := List.mem_filterMap.mp member
  obtain ⟨job', isJob', _, writes⟩ := turns.known place inPlaces
  obtain rfl := Option.some.inj (isJob'.symm.trans isJob)
  exact writes

end

namespace Completed

variable {jobs : List Job} {home : Place} {machine : Machine} {schedule : List Nat}
  {replies : List Reply}

/-- **Writes at the same time are serialisable.** -/
theorem serialised (completed : Completed jobs home machine schedule replies)
    (specified : ∀ job ∈ jobs, job.operation.Specified) :
    Serialised jobs home machine schedule replies := by
  obtain ⟨kept, holds, once, entered, serial, excluded⟩ := completed.settled
  have inOrder : kept.Orderly := by
    obtain ⟨_, _, _, _, keeps⟩ := holds.below
    exact keeps.orderly
  refine ⟨once, fun name => ?_, excluded, fun place reply failure isReply fails kind isTaker => ?_,
    fun name id before place since reply split isReply wrote leaves => ?_, fun name id contest => ?_,
    fun name isName => ?_⟩
  · obtain ⟨index, rising, turns, same⟩ := serial name
    obtain ⟨told, holds'⟩ := turns.aloneAt_eq completed.vacant
    refine ⟨index, rising, told.trans turns.told, ?_⟩
    intro session store opened operation collection reads isName
    have distinct := distinct_of_read reads
    rw [(holds.attempt_eq opened distinct).1, (holds'.attempt_eq opened distinct).1]
    exact outcome_of_read reads isName same.symm
  · obtain ⟨name, member⟩ := entered place isTaker
    obtain ⟨_, _, turns, _⟩ := serial name
    obtain ⟨before, since, split⟩ := List.append_of_mem member
    obtain ⟨job, _, _, _, isReply', _⟩ := turns.step split
    obtain rfl := Option.some.inj (isReply'.symm.trans isReply)
    exact timely_outcome job.operation _ failure fails kind
  · obtain ⟨_, _, turns, same⟩ := serial name
    obtain ⟨document, generated, isGiven, record, isDocument, isRecord, has⟩ :=
      turns.lasting split isReply wrote leaves
    have found : (kept.held name).documents.lookup (keyName id) = some record := by
      rw [Cabinet.held, ← same]
      exact has.found
    have wellFormed := ((inOrder.held name).documents _ record found).1
    refine ⟨document, generated, isGiven, record, _, isDocument, isRecord,
      Json.alike_settled .document wellFormed, ?_⟩
    obtain ⟨job, _, isName, _⟩ := turns.step split
    have checked := checkedName_ofString (Job.named_of_collection? isName)
    have isId : Identifier.ofValue (.ofString id) = .ok id := rfl
    intro session store opened
    have answer := (holds.attempt_eq opened
      (show Operation.Distinct (.findOneById (.ofString name) (.ofString id)) from trivial)).1
    rw [answer, outcome, checked, isId]
    refine congrArg Except.ok ?_
    rw [found?, show (Keeper.files store).slot id = keyName id from rfl, found, Option.filter_some,
      if_pos (beq_iff_eq.mpr has.isId)]
    rfl
  · obtain ⟨index, _, turns, _⟩ := serial name
    obtain ⟨winner, won⟩ := contest.exists_won turns
    exact ⟨winner, won, fun other won' => won.unique won'⟩
  · obtain ⟨_, _, turns, same⟩ := serial name
    refine ⟨kept.active name, ?_, ?_⟩
    · have oneType := turns.oneType specified
      rw [checksOf, Cabinet.held, same] at oneType
      exact oneType.subset fun constraint member => mem_active.mp member
    · intro session store opened
      have answer := (holds.attempt_eq opened
        (show Operation.Distinct (.listConstraints (.ofString name)) from trivial)).1
      rw [answer, outcome, checkedName_ofString (Files.named_of_nameFault? isName)]
      rfl

end Completed

/-! ## Two insertions of one identifier -/

/-- A second database over the same directory. -/
def secondSession : Session := .start 1 (.files newStore) newStore.logger

/-- Two databases insert the same document. -/
def twoInsertions : List Job :=
  [⟨newSession, newStore, .insert (.ofString "users") ada⟩,
    ⟨secondSession, newStore, .insert (.ofString "users") ada⟩]

/-- Two programs make their steps alternately. -/
def alternately (steps : Nat) : List Nat := (List.range steps).map (· % 2)

theorem writes_twoInsertions : ∀ job ∈ twoInsertions, job.Writes ["data"] newMachine := by
  intro job member
  rcases List.mem_cons.mp member with rfl | member
  · exact ⟨opened_newSession, rfl, distinct_ada⟩
  · obtain rfl := List.mem_singleton.mp member
    exact ⟨⟨rfl, vacant_newMachine, blank_newStore⟩, rfl, distinct_ada⟩

theorem ended_twoInsertions :
    (((begun twoInsertions newMachine).after (alternately 120)).results?).isSome
      ∧ ((begun twoInsertions newMachine).after (alternately 120)).machine.names
        ≤ Nat.pow 10 Machine.freshNameLength := by
  decide +kernel

/-- Whichever of the two gets the lock first, they come to what they come to one after another. -/
theorem two_insertions_serialised : ∃ replies,
    Completed twoInsertions ["data"] newMachine (alternately 120) replies
      ∧ (∀ job ∈ twoInsertions, job.operation.Specified)
      ∧ Serialised twoInsertions ["data"] newMachine (alternately 120) replies := by
  obtain ⟨replies, ended⟩ := Option.isSome_iff_exists.mp ended_twoInsertions.1
  have completed : Completed twoInsertions ["data"] newMachine (alternately 120) replies :=
    ⟨⟨_, vacant_newMachine⟩, writes_twoInsertions, ended, ended_twoInsertions.2⟩
  have specified : ∀ job ∈ twoInsertions, job.operation.Specified := by
    simp [twoInsertions, Operation.Specified]
  exact ⟨replies, completed, specified, completed.serialised specified⟩

end DocStore.Database
