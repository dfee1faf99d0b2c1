import DocStore.Proofs.Database.Turns
import DocStore.Proofs.Files.Shared
import Mathlib.Order.Monotone.Basic
/-!
# Writes in the order of their locks

Databases write below the same directory at the same time, in any interleaving of their requests.
When all have ended, what has come of the writes on a collection, and what is kept there, is what
comes of the same writes one after another, in the order in which they have obtained the lock of the
collection (`Completed.serial`).  Writes that have not obtained a lock have failed
(`Job.Excluded`).
-/

set_option autoImplicit false

namespace DocStore

open Host (Machine Pool)

/-- Rising numbers are taken in order by a function that rises. -/
theorem Rises.exists_index {numbers : List Nat} {low high : Nat} (rises : Rises numbers low high) :
    ∃ index : Nat → Nat, StrictMono index
      ∧ ∀ position (inside : position < numbers.length), index (low + position) = numbers[position] := by
  let index (number : Nat) : Nat :=
    if number < low then number else numbers[number - low]?.getD (high + number)
  have before {number : Nat} (early : number < low) : index number = number := if_pos early
  have within (position : Nat) (inside : position < numbers.length) :
      index (low + position) = numbers[position] := by
    have notEarly : ¬ low + position < low := Nat.not_lt.mpr (Nat.le_add_right low position)
    rw [show index (low + position) = _ from if_neg notEarly, Nat.add_sub_cancel_left,
      List.getElem?_eq_getElem inside, Option.getD_some]
  have beyond {position : Nat} (outside : numbers.length ≤ position) :
      index (low + position) = high + (low + position) := by
    have notEarly : ¬ low + position < low := Nat.not_lt.mpr (Nat.le_add_right low position)
    rw [show index (low + position) = _ from if_neg notEarly, Nat.add_sub_cancel_left,
      List.getElem?_eq_none outside, Option.getD_none]
  have bounds {position : Nat} (inside : position < numbers.length) :
      low ≤ numbers[position] ∧ numbers[position] < high :=
    rises.within _ (List.getElem_mem inside)
  refine ⟨index, strictMono_nat_of_lt_succ fun number => ?_, within⟩
  rcases Nat.lt_or_ge number low with early | late
  · rw [before early]
    rcases Nat.lt_or_ge (number + 1) low with early' | late'
    · rw [before early']
      exact Nat.lt_succ_self number
    · obtain rfl : low = number + 1 := Nat.le_antisymm late' early
      rw [← Nat.add_zero (number + 1)]
      rcases Nat.eq_zero_or_pos numbers.length with nothing | some
      · rw [beyond (Nat.le_of_eq nothing)]
        omega
      · rw [within 0 some]
        exact (bounds some).1
  · obtain ⟨position, rfl⟩ := Nat.exists_eq_add_of_le late
    rw [Nat.add_assoc]
    rcases Nat.lt_or_ge (position + 1) numbers.length with inside | outside
    · rw [within (position + 1) inside, within position (Nat.lt_of_succ_lt inside)]
      exact List.pairwise_iff_getElem.mp rises.rises _ _ _ inside (Nat.lt_succ_self position)
    · rw [beyond outside]
      rcases Nat.lt_or_ge position numbers.length with last | later
      · rw [within position last]
        exact Nat.lt_of_lt_of_le (bounds last).2 (Nat.le_add_right _ _)
      · rw [beyond later]
        omega

namespace Database

open Disk (Path Place Vacant)
open Files (Named)

theorem gives_iff {generator given : Nat → Identifier.Generated} {drawn : List Nat} {calls : Nat} :
    Gives generator given drawn calls ↔ ∀ position (inside : position < drawn.length),
      given (calls + position) = generator drawn[position] := by
  induction drawn generalizing calls with
  | nil => simp [Gives]
  | cons number drawn ih =>
      rw [Gives, ih]
      constructor
      · rintro ⟨first, others⟩ position inside
        cases position with
        | zero => exact first
        | succ position =>
            rw [← Nat.succ_add_eq_add_succ]
            exact others position (Nat.lt_of_succ_lt_succ inside)
      · intro each
        refine ⟨each 0 (Nat.succ_pos _), fun position inside => ?_⟩
        rw [Nat.add_assoc, Nat.add_comm 1]
        exact each (position + 1) (Nat.succ_lt_succ inside)

/-! ## How jobs end -/

namespace Job

/-- How a job ends at a stage. -/
def Ended (job : Job) (setting : Setting) (name : String) (stage : Stage) (reply : Reply) : Prop :=
  ∃ told, Session.Ended setting job.store name (perform job.operation) stage told
    ∧ reply = ⟨job.operation, told⟩

/-- How a job ends that has not obtained a lock, when the locks of some collections have been
taken. -/
inductive Excluded (job : Job) (taken : String → Prop) : Reply → Prop
  /-- Its arguments are refused, as they are on any machine. -/
  | unfit {failure : Failure}
      (refuses : ∀ machine, job.alone machine = (⟨job.operation, .error failure⟩, machine)) :
      Excluded job taken ⟨job.operation, .error failure⟩
  /-- The lock of its collection is refused, which somebody else has taken. -/
  | refused {name : String} {failure : Failure} (isName : job.collection? = some name)
      (isTaken : taken name) (refusal : (job.store.lockOf name).Refusal failure) :
      Excluded job taken ⟨job.operation, .error failure⟩

/-- What the jobs below a directory have in common. -/
def setting (home : Place) (machine : Machine) : Setting where
  origin := machine.disk
  home := home
  layouts := { layout | layout.Blank }
  generator := machine.generator

variable {job : Job} {home : Place} {machine : Machine} (writes : job.Writes home machine)
include writes

/-- **A job obeys the protocol** of lock files. -/
theorem Writes.obeys {name : String} (isName : ∀ other, job.collection? = some other → other = name) :
    Obeys (setting home machine) job.store.root name (job.Ended (setting home machine) name) .outside
      job.program := by
  obtain ⟨collection, changes, locks⟩ := writes.locks
  have joins : job.session.Joins (setting home machine) job.store :=
    ⟨writes.opened.backend, writes.opened.vacant, writes.opened.blank, fun _ blank => blank⟩
  exact (Session.run_obeys joins locks fun other checked =>
    isName other ((collection?_eq changes).mpr checked)).bind fun stage told ended =>
      .done ⟨told, ended, rfl⟩

end Job

/-! ## One holder after another -/

section

variable {jobs : List Job} {replies : List Reply} {home : Place} {machine : Machine}
  {stages : Nat → Stage} {name : String}

/-- A job at a place has ended. -/
structure EndedAt (jobs : List Job) (replies : List Reply) (home : Place) (machine : Machine)
    (stages : Nat → Stage) (name : String) (place : Nat) (job : Job) (reply : Reply) : Prop where
  isJob : jobs[place]? = some job
  isReply : replies[place]? = some reply
  isName : job.collection? = some name
  writes : job.Writes home machine
  ended : job.Ended (Job.setting home machine) name (stages place) reply

/-- **Jobs that have held a lock one after another** have come to what they come to one after
another, whatever is kept in other collections, when the identifier generator gives them what it has
given them. -/
theorem outcomes_of_succession {drawer drawer' : Option Drawer} {calls calls' : Nat}
    {places : List Nat} (succession : Succession stages name drawer calls places drawer' calls')
    (each : ∀ place ∈ places, ∃ job reply,
      EndedAt jobs replies home machine stages name place job reply) :
    ∃ drawn, Rises drawn calls calls' ∧ ∀ given number cabinet,
      Gives machine.generator given drawn number → cabinet.Orderly → cabinet.drawer? name = drawer →
      (oneByOne (Job.outcome given) (places.filterMap (jobs[·]?)) (cabinet, number)).1
          = places.filterMap (replies[·]?)
        ∧ (oneByOne (Job.outcome given) (places.filterMap (jobs[·]?))
            (cabinet, number)).2.1.drawer? name = drawer' := by
  induction succession with
  | none later => exact ⟨[], .nil later, fun _ _ _ _ _ same => ⟨rfl, same⟩⟩
  | @holding _ _ _ place _ isHolding =>
      obtain ⟨job, reply, at'⟩ := each place (List.mem_singleton_self place)
      obtain ⟨told, ended, _⟩ := at'.ended
      rw [isHolding] at ended
      cases ended
  | @past _ _ _ _ _ place places before after drawn isPast found rises _ ih =>
      obtain ⟨job, reply, at'⟩ := each place List.mem_cons_self
      obtain ⟨told, ended, rfl⟩ := at'.ended
      rw [isPast] at ended
      cases ended with
      | past comes =>
          obtain ⟨others, rises', goesOn⟩ :=
            ih fun other member => each other (List.mem_cons_of_mem _ member)
          refine ⟨drawn ++ others, rises.append rises', ?_⟩
          intro given number cabinet gives orderly same
          obtain ⟨gives, gives'⟩ := gives_append.mp gives
          obtain ⟨isTold, same', isCalls⟩ :=
            comes.outcome_eq at'.writes at'.isName orderly (same.trans found.symm) gives
          have orderly' := at'.writes.orderly_outcome given
            (show (cabinet, number).1.Orderly from orderly)
          rw [show number + drawn.length = _ from isCalls.symm] at gives'
          obtain ⟨tell, last⟩ := goesOn given _ _ gives' orderly' same'
          rw [List.filterMap_cons_some at'.isJob, List.filterMap_cons_some at'.isReply, oneByOne_cons,
            isTold]
          exact ⟨congrArg _ tell, last⟩

end

/-! ## Jobs at the same time -/

/-- The path of the lock file of the collection that a job may change. -/
def Job.lockPath? (job : Job) : Option Path :=
  job.collection?.map fun name => (job.store.lockOf name).path

/-- Jobs that are begun on a machine. -/
def begun (jobs : List Job) (machine : Machine) : Pool Reply :=
  .start (jobs.map Job.program) machine

/-- The places of the jobs that obtain a lock, in the order in which they create its file. -/
def takers (jobs : List Job) (machine : Machine) (schedule : List Nat) : List Nat :=
  (begun jobs machine).creators (fun place => (jobs[place]?.bind Job.lockPath?).getD []) schedule

/-- The places of the jobs that obtain the lock of a collection, in the order in which they do. -/
def takersOf (jobs : List Job) (machine : Machine) (schedule : List Nat) (name : String) : List Nat :=
  (takers jobs machine schedule).filter fun place => jobs[place]?.bind Job.collection? = some name

/-- Jobs of databases that have been opened over the same directory have all ended after some steps
at their places, and fresh names have not started over. -/
structure Completed (jobs : List Job) (home : Place) (machine : Machine) (schedule : List Nat)
    (replies : List Reply) : Prop where
  vacant : ∃ root, Vacant machine.disk root home
  writes : ∀ job ∈ jobs, job.Writes home machine
  ended : ((begun jobs machine).after schedule).results? = some replies
  few : ((begun jobs machine).after schedule).machine.names ≤ Nat.pow 10 Machine.freshNameLength

/-- The collection of the job at a place. -/
def nameAt (jobs : List Job) (place : Nat) : String :=
  (jobs[place]?.bind Job.collection?).getD ""

/-- The root of the database of the job at a place. -/
def rootAt (jobs : List Job) (place : Nat) : Path :=
  (jobs[place]?.map fun job => job.store.root).getD []

section

variable {jobs : List Job} {place : Nat}

/-- A name that a collection may have is the one of a job. -/
theorem exists_job_of_named (named : Named (nameAt jobs place)) : ∃ job, jobs[place]? = some job
    ∧ job.collection? = some (nameAt jobs place) ∧ rootAt jobs place = job.store.root := by
  unfold nameAt at named ⊢
  cases isName : jobs[place]?.bind Job.collection? with
  | none =>
      rw [isName] at named
      exact absurd rfl named.nonempty
  | some name =>
      obtain ⟨job, isJob, isName⟩ := Option.bind_eq_some_iff.mp isName
      exact ⟨job, isJob, isName, by rw [rootAt, isJob, Option.map_some, Option.getD_some]⟩

end

/-- Where each job may change the collection of its place, the jobs of a name are those of a
collection. -/
theorem filter_places {jobs : List Job} {places : List Nat} {name : String}
    (each : ∀ place ∈ places, ∃ job, jobs[place]? = some job
      ∧ job.collection? = some (nameAt jobs place)) :
    (places.filter fun place => nameAt jobs place = name)
      = places.filter fun place => jobs[place]?.bind Job.collection? = some name := by
  refine List.filter_congr fun place member => ?_
  obtain ⟨job, isJob, isName⟩ := each place member
  rw [isJob, Option.bind_some, isName]
  exact (decide_eq_decide.mpr Option.some_inj).symm

namespace Completed

variable {jobs : List Job} {home : Place} {machine : Machine} {schedule : List Nat}
  {replies : List Reply} (completed : Completed jobs home machine schedule replies)
include completed

/-- Every job has its reply. -/
theorem exists_reply {place : Nat} {job : Job} (isJob : jobs[place]? = some job) :
    ∃ reply, replies[place]? = some reply := by
  have isThere : (((begun jobs machine).after schedule).program? place).isSome := by
    rw [Pool.isSome_program?_after, begun, Pool.program?_start, List.getElem?_map, isJob,
      Option.map_some, Option.isSome_some]
  rw [Pool.program?_of_results completed.ended, Option.isSome_map] at isThere
  exact Option.isSome_iff_exists.mp isThere

/-- The jobs share their root until all have ended. -/
theorem sharing :
    Sharing (Job.setting home machine) (rootAt jobs) (nameAt jobs)
      (fun place stage reply => ∃ job, jobs[place]? = some job
        ∧ job.Ended (Job.setting home machine) (nameAt jobs place) stage reply)
      machine.calls ((begun jobs machine).after schedule) (takers jobs machine schedule) := by
  obtain ⟨root, vacant⟩ := completed.vacant
  have blank : Json.Layout.line ∈ (Job.setting home machine).layouts := Json.Layout.Blank.line
  have start : Shared (Job.setting home machine) (rootAt jobs) (nameAt jobs)
      (fun place stage reply => ∃ job, jobs[place]? = some job
        ∧ job.Ended (Job.setting home machine) (nameAt jobs place) stage reply)
      machine.calls (begun jobs machine) (fun _ => .outside) Memory.empty (fun _ => none)
      (fun _ => none) [] := by
    refine .start vacant.shows rfl blank fun place program there => ?_
    rw [List.getElem?_map, Option.map_eq_some_iff] at there
    obtain ⟨job, isJob, rfl⟩ := there
    have writes := completed.writes job (List.mem_of_getElem? isJob)
    have isRoot : rootAt jobs place = job.store.root := by
      rw [rootAt, isJob, Option.map_some, Option.getD_some]
    rw [isRoot]
    refine (writes.obeys fun other isName => ?_).mono fun stage reply ended => ⟨job, isJob, ended⟩
    rw [nameAt, isJob, Option.bind_some, isName, Option.getD_some]
  have known {place : Nat} (named : Named (nameAt jobs place)) :
      Vacant machine.disk (rootAt jobs place) home
        ∧ (jobs[place]?.bind Job.lockPath?).getD []
          = (rootAt jobs place).trimmed ++ lockNames (nameAt jobs place) := by
    obtain ⟨job, isJob, isName, isRoot⟩ := exists_job_of_named named
    have opened := (completed.writes job (List.mem_of_getElem? isJob)).opened
    rw [isRoot, isJob, Option.bind_some, Job.lockPath?, isName, Option.map_some, Option.getD_some]
    exact ⟨opened.vacant, FileStore.lockPath_eq opened.vacant.resolved named⟩
  have sharing := Sharing.after ⟨_, _, _, _, start⟩ (fun place named => (known named).1)
    (fun place named => (known named).2) completed.few
  exact sharing

section

variable {stages : Nat → Stage} {kept : Cabinet} {view branch : Disk.Branch}
  (shared : Shared (Job.setting home machine) (rootAt jobs) (nameAt jobs)
    (fun place stage reply => ∃ job, jobs[place]? = some job
      ∧ job.Ended (Job.setting home machine) (nameAt jobs place) stage reply)
    machine.calls ((begun jobs machine).after schedule) stages kept view branch
    (takers jobs machine schedule))
include shared

omit completed in
/-- Who has taken a lock is a job that may change the collection of its place. -/
theorem known {place : Nat} (member : place ∈ takers jobs machine schedule) :
    ∃ job, jobs[place]? = some job ∧ job.collection? = some (nameAt jobs place) := by
  have arrived : stages place ≠ .outside := fun outside => by
    have entered := (shared.roll.entered place).mp member
    rw [outside] at entered
    exact entered
  obtain ⟨job, isJob, isName, _⟩ := exists_job_of_named (shared.named place arrived)
  exact ⟨job, isJob, isName⟩

/-- Once all have ended no lock is held. -/
theorem unheld (place : Nat) (tenure : Tenure) : stages place ≠ .holding tenure := by
  refine shared.nobody_holding completed.ended (fun place tenure reply ended => ?_)
    (fun place named => ?_) place tenure
  · obtain ⟨job, _, told, ended, _⟩ := ended
    cases ended
  · obtain ⟨job, isJob, _⟩ := exists_job_of_named named
    rw [Pool.isSome_program?_after, begun, Pool.program?_start, List.getElem?_map, isJob,
      Option.map_some, Option.isSome_some]

/-- The directory holds the cabinet, with no lock left. -/
theorem holds : Job.Holds home machine machine.generator
    (kept, ((begun jobs machine).after schedule).machine.calls)
    ((begun jobs machine).after schedule).machine := by
  refine ⟨shared.generator, rfl, branch, _, shared.files.unlocked (completed.unheld shared),
    shared.files.sees.shows, shared.lands.keeps fun place => ?_⟩
  cases stage : stages place with
  | holding tenure => exact absurd stage (completed.unheld shared place tenure)
  | outside | waiting | past => rw [Function.comp_apply, stage]; rfl

/-- Who has taken the lock of a collection has ended with a reply. -/
theorem endedAt {name : String} {place : Nat}
    (member : place ∈ takersOf jobs machine schedule name) :
    ∃ job reply, EndedAt jobs replies home machine stages name place job reply := by
  obtain ⟨isTaker, isCollection⟩ := List.mem_filter.mp member
  obtain ⟨job, isJob, isName⟩ := known shared isTaker
  obtain ⟨reply, isReply⟩ := completed.exists_reply isJob
  obtain ⟨job', isJob', ended⟩ := shared.ends_of_results completed.ended isReply
  obtain rfl := Option.some.inj (isJob'.symm.trans isJob)
  have same : nameAt jobs place = name := by
    rw [isJob, Option.bind_some, isName] at isCollection
    exact Option.some.inj (of_decide_eq_true isCollection)
  rw [same] at isName ended
  exact ⟨_, reply, isJob, isReply, isName, completed.writes _ (List.mem_of_getElem? isJob), ended⟩

/-- Who has taken the lock of a collection has come to what it comes to in its turn. -/
theorem turns (name : String) : ∃ index : Nat → Nat, StrictMono index
    ∧ Turns jobs replies home machine (machine.generator ∘ index) name
      (takersOf jobs machine schedule name)
    ∧ (outcomesAt jobs machine (machine.generator ∘ index)
        (takersOf jobs machine schedule name)).2.1.drawer? name = kept.drawer? name := by
  have succession := shared.roll.succession name
  rw [filter_places fun place member => known shared member] at succession
  obtain ⟨drawn, rises, goes⟩ :=
    outcomes_of_succession succession fun place member => completed.endedAt shared member
  obtain ⟨index, rising, within⟩ := rises.exists_index
  obtain ⟨told, last⟩ := goes (machine.generator ∘ index) machine.calls Memory.empty
    (gives_iff.mpr fun position inside => congrArg machine.generator (within position inside))
    Cabinet.slotted_empty rfl
  refine ⟨index, rising, ⟨fun place member => ?_, told, fun place member => ?_⟩, last⟩
  · obtain ⟨job, reply, ended⟩ := completed.endedAt shared member
    exact ⟨job, ended.isJob, ended.isName, ended.writes⟩
  · obtain ⟨job, reply, ended⟩ := completed.endedAt shared member
    exact Option.isSome_iff_exists.mpr ⟨reply, ended.isReply⟩

/-- Who has not taken a lock has been kept from it. -/
theorem excluded {place : Nat} {job : Job} {reply : Reply} (isJob : jobs[place]? = some job)
    (isReply : replies[place]? = some reply) (notTaken : place ∉ takers jobs machine schedule) :
    job.Excluded (fun name => takersOf jobs machine schedule name ≠ []) reply := by
  obtain ⟨job', isJob', told, ended, rfl⟩ := shared.ends_of_results completed.ended isReply
  obtain rfl := Option.some.inj (isJob'.symm.trans isJob)
  generalize isStage : stages place = stage at ended
  cases ended with
  | unfit refuses =>
      refine .unfit fun machine => ?_
      rw [Job.alone, Job.program, Session.perform, refuses]
      rfl
  | refused refusal =>
      have arrived : stages place ≠ .outside := by simp [isStage]
      obtain ⟨job', isJob', isName, _⟩ := exists_job_of_named (shared.named place arrived)
      obtain rfl := Option.some.inj (isJob'.symm.trans isJob)
      obtain ⟨other, isTaker, same⟩ := shared.roll.refused place isStage
      obtain ⟨otherJob, isOther, isOtherName⟩ := known shared isTaker
      refine .refused isName (fun nobody => ?_) refusal
      have member : other ∈ takersOf jobs machine schedule (nameAt jobs place) :=
        List.mem_filter.mpr ⟨isTaker, by rw [isOther, Option.bind_some, isOtherName, same]; simp⟩
      exact List.not_mem_nil (nobody ▸ member)
  | past comes =>
      refine absurd ((shared.roll.entered place).mpr ?_) notTaken
      rw [isStage]
      trivial

end

/-- **What jobs come to that write at the same time.**  The directory holds a cabinet, with no lock
left.  On each collection the jobs that have obtained its lock, each of them once, have come to what
they come to in turn, in this order, when the identifier generator leaves some of its calls out.
All other jobs have failed. -/
theorem settled : ∃ kept,
    Job.Holds home machine machine.generator
        (kept, ((begun jobs machine).after schedule).machine.calls)
        ((begun jobs machine).after schedule).machine
      ∧ (takers jobs machine schedule).Nodup
      ∧ (∀ place ∈ takers jobs machine schedule, ∃ name, place ∈ takersOf jobs machine schedule name)
      ∧ (∀ name, ∃ index : Nat → Nat, StrictMono index
        ∧ Turns jobs replies home machine (machine.generator ∘ index) name
          (takersOf jobs machine schedule name)
        ∧ (outcomesAt jobs machine (machine.generator ∘ index)
            (takersOf jobs machine schedule name)).2.1.drawer? name = kept.drawer? name)
      ∧ ∀ place job reply, jobs[place]? = some job → replies[place]? = some reply →
        place ∉ takers jobs machine schedule →
        job.Excluded (fun name => takersOf jobs machine schedule name ≠ []) reply := by
  obtain ⟨stages, kept, view, branch, shared⟩ := completed.sharing
  refine ⟨kept, completed.holds shared, shared.roll.once, fun place member => ?_,
    completed.turns shared, fun place job reply => completed.excluded shared⟩
  obtain ⟨job, isJob, isName⟩ := known shared member
  exact ⟨nameAt jobs place, List.mem_filter.mpr ⟨member, by rw [isJob, Option.bind_some, isName]; simp⟩⟩

end Completed

end Database

end DocStore
