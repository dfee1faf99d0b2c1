import DocStore.Proofs.Database.FieldTypes
import DocStore.Proofs.Database.Jobs
import DocStore.Proofs.Database.Lasting
/-!
# Writes on one collection in turn

Jobs that change one collection, one after another, from nothing on (`Turns`).  What one of them has
written is there at the end unless a later one has taken it away or written it again
(`Turns.lasting`).  Of several insertions of one identifier that nothing else can refuse exactly one
succeeds (`Contest.exists_won`).  No field has two types (`Turns.oneType`).
-/

set_option autoImplicit false

namespace DocStore.Database

open Disk (Place)
open Files (Apart keyName)
open Host (Machine)

/-! ## What is read of one collection -/

/-- The collection that an operation reads and does not change. -/
def Operation.read? : Operation → Option Caller.Value
  | .collectionExists collection | .find collection _ | .findOne collection _
  | .findOneById collection _ | .count collection _ | .listConstraints collection => some collection
  | _ => none

theorem settle_congr {α β σ : Type} {result : Except Failure β} {state state' : σ}
    {next next' : β → Except Failure α × σ}
    (same : ∀ value, result = .ok value → (next value).1 = (next' value).1) :
    (settle result state next).1 = (settle result state' next').1 := by
  cases result with
  | error failure => rfl
  | ok value => exact same value rfl

theorem collection_of_cursorOf {collection query : Caller.Value} {name : String}
    (isName : checkedName collection = .ok name) {cursor : Cursor}
    (isCursor : cursorOf collection query = .ok cursor) : cursor.collection = name := by
  obtain ⟨name', isName', isCursor⟩ := Caller.bind_eq_ok isCursor
  obtain ⟨query', _, isCursor⟩ := Caller.bind_eq_ok isCursor
  cases isCursor
  exact Except.ok.inj (isName'.symm.trans isName)

theorem distinct_of_read {operation : Operation} {collection : Caller.Value}
    (reads : operation.read? = some collection) : operation.Distinct := by
  cases operation <;> trivial

/-- What is read of a collection depends on that collection alone. -/
theorem outcome_of_read {keeper : Keeper} {generator generator' : Nat → Identifier.Generated}
    {operation : Operation} {collection : Caller.Value} (reads : operation.read? = some collection)
    {name : String} (isName : checkedName collection = .ok name) {state state' : Cabinet × Nat}
    (same : state.1.drawer? name = state'.1.drawer? name) :
    (outcome keeper generator operation state).1
      = (outcome keeper generator' operation state').1 := by
  have held : state.1.held name = state'.1.held name := congrArg (Option.getD · _) same
  have lists {query : Caller.Value} {cursor : Cursor}
      (isCursor : cursorOf collection query = .ok cursor) :
      listing keeper cursor.collection state.1 = listing keeper cursor.collection state'.1 := by
    rw [collection_of_cursorOf isName isCursor, listing, held, listing]
  cases operation <;> cases reads
  case collectionExists =>
      refine settle_congr fun name' isName' => ?_
      obtain rfl := Except.ok.inj (isName'.symm.trans isName)
      rw [same]
  case find | findOne | count =>
      refine settle_congr fun cursor isCursor => ?_
      rw [lists isCursor]
  case findOneById =>
      refine settle_congr fun name' isName' => settle_congr fun id _ => ?_
      obtain rfl := Except.ok.inj (isName'.symm.trans isName)
      rw [found?, held, found?]
  case listConstraints =>
      refine settle_congr fun name' isName' => ?_
      obtain rfl := Except.ok.inj (isName'.symm.trans isName)
      rw [Cabinet.active, held, Cabinet.active]

/-! ## Jobs in turn -/

/-- What comes of the jobs at some places one after another, when nothing is kept at first. -/
def outcomesAt (jobs : List Job) (machine : Machine) (generator : Nat → Identifier.Generated)
    (places : List Nat) : List Reply × (Cabinet × Nat) :=
  oneByOne (Job.outcome generator) (places.filterMap (jobs[·]?)) (Memory.empty, machine.calls)

/-- Jobs at some places change one collection, and come to their replies one after another. -/
structure Turns (jobs : List Job) (replies : List Reply) (home : Place) (machine : Machine)
    (generator : Nat → Identifier.Generated) (name : String) (places : List Nat) : Prop where
  known : ∀ place ∈ places, ∃ job, jobs[place]? = some job ∧ job.collection? = some name
    ∧ job.Writes home machine
  told : (outcomesAt jobs machine generator places).1 = places.filterMap (replies[·]?)
  replied : ∀ place ∈ places, (replies[place]?).isSome

namespace Turns

variable {jobs : List Job} {replies : List Reply} {home : Place} {machine : Machine}
  {generator : Nat → Identifier.Generated} {name : String} {places : List Nat}

theorem filterMap_length {α : Type} {list : List α} {places : List Nat}
    (there : ∀ place ∈ places, (list[place]?).isSome) :
    (places.filterMap (list[·]?)).length = places.length := by
  induction places with
  | nil => rfl
  | cons place rest ih =>
      obtain ⟨item, isItem⟩ := Option.isSome_iff_exists.mp (there place List.mem_cons_self)
      rw [List.filterMap_cons_some isItem, List.length_cons, List.length_cons,
        ih fun other member => there other (List.mem_cons_of_mem _ member)]

variable (turns : Turns jobs replies home machine generator name places)
include turns

/-- What is kept before a turn, and how often the generator has been called then. -/
theorem step {before since : List Nat} {place : Nat} (split : places = before ++ place :: since) :
    ∃ job, jobs[place]? = some job ∧ job.collection? = some name ∧ job.Writes home machine
      ∧ replies[place]? = some (job.outcome generator (outcomesAt jobs machine generator before).2).1
      ∧ (outcomesAt jobs machine generator (before ++ [place])).2
        = (job.outcome generator (outcomesAt jobs machine generator before).2).2 := by
  obtain ⟨job, isJob, isName, writes⟩ := turns.known place (by simp [split])
  refine ⟨job, isJob, isName, writes, ?_, ?_⟩
  · obtain ⟨reply, isReply⟩ := Option.isSome_iff_exists.mp (turns.replied place (by simp [split]))
    have told := turns.told
    subst split
    rw [outcomesAt, List.filterMap_append, List.filterMap_append, oneByOne_append,
      List.filterMap_cons_some isJob, List.filterMap_cons_some isReply, oneByOne_cons] at told
    have sameLength : (outcomesAt jobs machine generator before).1.length
        = (before.filterMap (replies[·]?)).length := by
      rw [outcomesAt, length_oneByOne, filterMap_length, filterMap_length]
      · exact fun other member => turns.replied other (List.mem_append_left _ member)
      · intro other member
        obtain ⟨job', isJob', _⟩ := turns.known other (List.mem_append_left _ member)
        rw [isJob']
        rfl
    have heads := (List.append_inj told sameLength).2
    rw [isReply]
    exact congrArg some (List.cons.inj heads).1.symm
  · rw [outcomesAt, List.filterMap_append, oneByOne_append, List.filterMap_cons_some isJob]
    rfl

/-- No turn takes anything out of its slot. -/
theorem orderly {first last : List Nat} (split : places = first ++ last) :
    (outcomesAt jobs machine generator first).2.1.Orderly := by
  refine oneByOne_induction (fun state : Cabinet × Nat => state.1.Orderly) ?_ Cabinet.slotted_empty
  intro job member state inSlots
  obtain ⟨place, inFirst, isJob⟩ := List.mem_filterMap.mp member
  obtain ⟨job', isJob', _, writes⟩ := turns.known place (by simp [split, inFirst])
  obtain rfl := Option.some.inj (isJob'.symm.trans isJob)
  exact writes.orderly_outcome generator inSlots

/-- What every turn keeps is kept from one turn to a later one. -/
theorem keeps (holds : Cabinet × Nat → Prop) (first : List Nat) {middle last : List Nat}
    (split : places = first ++ (middle ++ last))
    (start : holds (outcomesAt jobs machine generator first).2)
    (each : ∀ place ∈ middle, ∀ (job : Job) (state : Cabinet × Nat),
      job.collection? = some name → job.Writes home machine → state.1.Orderly →
      replies[place]? = some (job.outcome generator state).1 → holds state →
      holds (job.outcome generator state).2) :
    holds (outcomesAt jobs machine generator (first ++ middle)).2 := by
  induction middle generalizing first with
  | nil => rwa [List.append_nil]
  | cons place middle ih =>
      obtain ⟨job, _, isName, writes, isReply, goes⟩ := turns.step split
      have next : holds (outcomesAt jobs machine generator (first ++ [place])).2 := by
        rw [goes]
        exact each place List.mem_cons_self job _ isName writes (turns.orderly split) isReply start
      have goesOn := ih (first ++ [place]) (by simp [split]) next fun other member =>
        each other (List.mem_cons_of_mem _ member)
      rwa [List.append_assoc] at goesOn

/-! ## What is lasting -/

/-- **What has been written lasts** until it is taken away or written again. -/
theorem lasting {before since : List Nat} {place : Nat} (split : places = before ++ place :: since)
    {reply : Reply} (isReply : replies[place]? = some reply) {id : String}
    (wrote : reply.operation.Wrote name id reply.told)
    (leaves : ∀ other ∈ since, ∀ reply : Reply, replies[other]? = some reply →
      ¬ reply.operation.Removes ∧ ¬ reply.operation.Wrote name id reply.told) :
    ∃ document generated isGiven record, reply.operation.document? = some document
      ∧ Records document generated isGiven id record
      ∧ Has keyName (outcomesAt jobs machine generator places).2.1 name id record := by
  obtain ⟨job, _, _, writes, isReply', goes⟩ := turns.step split
  obtain rfl := Option.some.inj (isReply'.symm.trans isReply)
  obtain ⟨document, isGiven, record, isDocument, isRecord, has⟩ :=
    exists_has_of_wrote writes.distinct wrote
  refine ⟨document, _, isGiven, record, isDocument, isRecord, ?_⟩
  have start : Has keyName (outcomesAt jobs machine generator (before ++ [place])).2.1 name id
      record := by
    rw [goes]
    exact has
  have stays := turns.keeps (fun state => Has keyName state.1 name id record) (before ++ [place])
    (show places = before ++ [place] ++ (since ++ []) by simp [split]) start ?_
  · rwa [List.append_assoc, List.singleton_append, ← split] at stays
  · intro other member job state _ writes _ isReply has
    obtain ⟨leaves, noWrite⟩ := leaves other member _ isReply
    exact stays_outcome writes.distinct has leaves noWrite

/-- Every document comes from a turn. -/
theorem exists_wrote {before since : List Nat} (split : places = before ++ since)
    {entry : String × Json}
    (inside : entry ∈ ((outcomesAt jobs machine generator before).2.1.held name).documents)
    {id : String} (isId : FileStore.documentId? entry.2 = some id) :
    ∃ place ∈ before, ∃ reply, replies[place]? = some reply
      ∧ reply.operation.Wrote name id reply.told := by
  have start : ∀ entry ∈ ((outcomesAt jobs machine generator []).2.1.held name).documents, ∀ id,
      FileStore.documentId? entry.2 = some id → ∃ place ∈ before, ∃ reply,
        replies[place]? = some reply ∧ reply.operation.Wrote name id reply.told :=
    fun entry inside => nomatch inside
  refine turns.keeps (fun state => ∀ entry ∈ (state.1.held name).documents, ∀ id,
      FileStore.documentId? entry.2 = some id → ∃ place ∈ before, ∃ reply,
        replies[place]? = some reply ∧ reply.operation.Wrote name id reply.told) [] split start ?_
    entry inside id isId
  intro place member job state _ writes inSlots isReply known entry inside id isId
  rcases documents_outcome writes.distinct inSlots inside isId with ⟨wrote, _⟩ | ⟨_, inside⟩
  · exact ⟨place, member, _, isReply, wrote⟩
  · exact known entry inside id isId

/-- No field has two types. -/
theorem oneType (specified : ∀ job ∈ jobs, job.operation.Specified) :
    OneType (checksOf name (outcomesAt jobs machine generator places).2.1) := by
  refine oneByOne_induction (fun state : Cabinet × Nat => OneType (checksOf name state.1)) ?_
    fun _ _ _ member => nomatch member
  intro job member state oneType
  obtain ⟨place, inPlaces, isJob⟩ := List.mem_filterMap.mp member
  obtain ⟨job', isJob', _, writes⟩ := turns.known place inPlaces
  obtain rfl := Option.some.inj (isJob'.symm.trans isJob)
  exact oneType_outcome writes.distinct (specified _ (List.mem_of_getElem? isJob)) oneType

end Turns

/-! ## Insertions of one identifier -/

/-- An operation inserts a document that names its identifier. -/
def Operation.Inserts (id : String) : Operation → Prop
  | .insert _ document => Names document id
  | _ => False

/-- Insertions of one identifier that nothing but each other can refuse: nothing is removed, nothing
else is written under the identifier, no constraint is broken, and no other identifier has the same
file. -/
structure Contest (replies : List Reply) (name id : String) (places : List Nat) : Prop where
  entered : ∃ place ∈ places, ∃ reply, replies[place]? = some reply ∧ reply.operation.Inserts id
  leaves : ∀ place ∈ places, ∀ reply, replies[place]? = some reply → ¬ reply.operation.Removes
  only : ∀ place ∈ places, ∀ reply, replies[place]? = some reply →
    reply.operation.Wrote name id reply.told → reply.operation.Inserts id
  allowed : ∀ place ∈ places, ∀ reply, replies[place]? = some reply → reply.operation.Inserts id →
    ∀ failure, reply.told = .error failure → failure.kind? ≠ some .violation
  apart : Apart (insert id { other | ∃ place ∈ places, ∃ reply, replies[place]? = some reply
    ∧ reply.operation.Wrote name other reply.told })

/-- One insertion has succeeded, and all others have found the identifier taken. -/
structure Won (replies : List Reply) (name id : String) (places : List Nat) (winner : Nat) :
    Prop where
  entered : winner ∈ places
  succeeded : ∃ reply, replies[winner]? = some reply ∧ reply.operation.Inserts id
    ∧ reply.operation.Wrote name id reply.told
  others : ∀ place ∈ places, place ≠ winner → ∀ reply, replies[place]? = some reply →
    reply.operation.Inserts id →
    ∃ failure, reply.told = .error failure ∧ failure.kind? = some .duplicateId

section

variable {jobs : List Job} {replies : List Reply} {home : Place} {machine : Machine}
  {generator : Nat → Identifier.Generated} {name : String} {places : List Nat}
  (turns : Turns jobs replies home machine generator name places)
include turns

/-- An insertion of an identifier has succeeded, or its slot was taken before. -/
theorem Contest.told {id : String} (contest : Contest replies name id places)
    {before since : List Nat} {place : Nat} (split : places = before ++ place :: since)
    {reply : Reply} (isReply : replies[place]? = some reply) (inserts : reply.operation.Inserts id) :
    (reply.operation.Wrote name id reply.told
        ∧ ∀ record, ¬ Has keyName (outcomesAt jobs machine generator before).2.1 name id record)
      ∨ (∃ failure, reply.told = .error failure ∧ failure.kind? = some .duplicateId)
        ∧ (((outcomesAt jobs machine generator before).2.1.held name).documents.lookup
            (keyName id)).isSome := by
  have allowed := contest.allowed place (by simp [split]) reply isReply inserts
  obtain ⟨job, isJob, isName, writes, isReply', _⟩ := turns.step split
  obtain rfl := Option.some.inj (isReply'.symm.trans isReply)
  obtain ⟨session, store, operation⟩ := job
  have distinct : operation.Distinct := writes.distinct
  cases operation with
  | insert collection document =>
      have checked : checkedName collection = .ok name :=
        (Job.collection?_eq (show Operation.changed? (.insert collection document) = _ from rfl)).mp
          isName
      have cases := @insertion_cases (.files store) generator
        (outcomesAt jobs machine generator before).2 name id _ _ checked inserts
      rcases cases with told | ⟨failure, told, breaks | ⟨kind, isTaken⟩⟩
      · exact .inl ⟨⟨checked, told⟩, not_has_of_inserted distinct ⟨checked, told⟩⟩
      · exact absurd breaks (allowed failure told)
      · exact .inr ⟨⟨failure, told, kind⟩, isTaken⟩
  | _ => exact inserts.elim

/-- **Exactly one insertion succeeds** of those of one identifier, and the others find it taken. -/
theorem Contest.exists_won {id : String} (contest : Contest replies name id places) :
    ∃ winner, Won replies name id places winner := by
  classical
  let inserts (place : Nat) : Prop := ∃ reply, replies[place]? = some reply ∧ reply.operation.Inserts id
  obtain ⟨entrant, inPlaces, enters⟩ := contest.entered
  -- The first one wins.
  have someone : (places.find? fun place => decide (inserts place)).isSome :=
    List.find?_isSome.mpr ⟨entrant, inPlaces, decide_eq_true enters⟩
  obtain ⟨winner, isFirst⟩ := Option.isSome_iff_exists.mp someone
  obtain ⟨isWinner, before, since, split, notBefore⟩ := List.find?_eq_some_iff_append.mp isFirst
  obtain ⟨reply, isReply, isInsertion⟩ := of_decide_eq_true isWinner
  have wrote : reply.operation.Wrote name id reply.told := by
    rcases contest.told turns split isReply isInsertion with ⟨wrote, _⟩ | ⟨_, isTaken⟩
    · exact wrote
    · exfalso
      obtain ⟨record, found⟩ := Option.isSome_iff_exists.mp isTaken
      have inSlots := (turns.orderly split).held name
      obtain ⟨_, other, isOther, sameFile⟩ := inSlots.documents _ record found
      obtain ⟨place, earlier, reply', isReply', wrote'⟩ :=
        turns.exists_wrote split (Lookup.mem_of_lookup found) isOther
      have inside : place ∈ places := by simp [split, earlier]
      have same : id = other := Files.keyName_injOn contest.apart (Set.mem_insert _ _)
        (Set.mem_insert_of_mem _ ⟨place, inside, reply', isReply', wrote'⟩) sameFile
      have enters' : inserts place :=
        ⟨reply', isReply', contest.only place inside reply' isReply' (same ▸ wrote')⟩
      simpa [enters'] using notBefore place earlier
  refine ⟨winner, by simp [split], ⟨reply, isReply, isInsertion, wrote⟩,
    fun place member differs reply' isReply' isInsertion' => ?_⟩
  have later : place ∈ since := by
    rw [split] at member
    rcases List.mem_append.mp member with earlier | member
    · have enters' : inserts place := ⟨reply', isReply', isInsertion'⟩
      simpa [enters'] using notBefore place earlier
    · exact (List.mem_cons.mp member).resolve_left differs
  obtain ⟨between, last, rfl⟩ := List.append_of_mem later
  have split' : places = (before ++ winner :: between) ++ place :: last := by simp [split]
  rcases contest.told turns split' isReply' isInsertion' with ⟨_, isNew⟩ | ⟨fails, _⟩
  · exfalso
    obtain ⟨job, _, _, writes, isJobReply, goes⟩ := turns.step split
    obtain rfl := Option.some.inj (isJobReply.symm.trans isReply)
    have start : ∃ record,
        Has keyName (outcomesAt jobs machine generator (before ++ [winner])).2.1 name id record := by
      obtain ⟨_, _, record, _, _, has⟩ := exists_has_of_wrote writes.distinct wrote
      rw [goes]
      exact ⟨record, has⟩
    have stays := turns.keeps (fun state => ∃ record, Has keyName state.1 name id record)
      (before ++ [winner])
      (show places = before ++ [winner] ++ (between ++ place :: last) by simp [split]) start ?_
    · rw [List.append_assoc, List.singleton_append] at stays
      obtain ⟨record, has⟩ := stays
      exact isNew record has
    · intro other inBetween job state _ writes _ isReply has
      have leaves := contest.leaves other (by simp [split, inBetween]) _ isReply
      exact @exists_has_outcome (.files job.store) generator state name id job.operation
        writes.distinct has leaves
  · exact fails

end

end DocStore.Database
