import DocStore.Lock.File
import DocStore.Proofs.Asking
import DocStore.Proofs.Host.Faults
/-!
# Attempts to take a lock

Taking a lock is a loop that only the clock ends: while others hold the lock it is tried again, and
nothing bounds what they do.  So nothing is assumed about them here: all that an acquisition asks is
answered in any way whatever (`Program.Leaves`).  The number of attempts that the loop is given is
any number, too (`FileLock.acquireWithin`), so that no bound comes from there.

`attempts_leaves` says what one round of the loop can do, and `loop_leaves` that a run of it is so
many rounds that wait (`Waits`), one after another, and a last one that does not (`Stops`); the
rounds that wait can indeed come about (`Waits.leaves`).  What is known of a round is known of the
whole loop: how many attempts are made and how often it is told that the lock is waited for
(`Waits.counts`, `Stops.counts`), and how it ends (`Stops.ends`).
-/

set_option autoImplicit false

namespace DocStore

open Host (Action Request interface)

namespace Host

variable {α : Type} {said : List (Exchange interface)}
  {left : Program interface (Except Failure α)}

/-- An action that asks first goes through nothing, or first through an answer. -/
theorem ask_leaves {request : Request} {next : request.Answer → Action α}
    (leaves : (ask request >>= next).toProgram.Leaves said left) :
    said = [] ∧ (∀ result, left ≠ .done result)
      ∨ ∃ answer since, said = ⟨request, answer⟩ :: since
        ∧ (next answer).toProgram.Leaves since left :=
  Program.Leaves.of_ask leaves

/-- The same for an action that makes a call on the disk first. -/
theorem tryCall_leaves {call : Disk.Call} {next : Except Disk.Errno call.Result → Action α}
    (leaves : (tryCall call >>= next).toProgram.Leaves said left) :
    said = [] ∧ (∀ result, left ≠ .done result)
      ∨ ∃ answer since, said = ⟨.disk call, answer⟩ :: since
        ∧ (next answer).toProgram.Leaves since left :=
  Program.Leaves.of_ask leaves

/-- An action that makes a directory first goes on after it has been made. -/
theorem makeDirectories_leaves {path : Disk.Path} {failure : Disk.Obstacle → Failure}
    {next : Action α}
    (leaves : (makeDirectories path failure >>= fun _ => next).toProgram.Leaves said left) :
    said.length ≤ 1 ∧ (∀ exchange ∈ said, exchange.request = .disk (.makeDirectories path))
        ∧ (∀ result, left = .done result → ∃ obstacle, result = .error (failure obstacle))
      ∨ ∃ since, said = ⟨.disk (.makeDirectories path), .ok none⟩ :: since
        ∧ next.toProgram.Leaves since left := by
  unfold makeDirectories at leaves
  rcases Program.Leaves.of_ask leaves with ⟨rfl, asks⟩ | ⟨made, since, rfl, goesOn⟩
  · exact .inl ⟨Nat.zero_le _, List.forall_mem_nil _, fun result isDone =>
      absurd isDone (asks result)⟩
  · rcases made with errno | none | obstacle
    · obtain ⟨rfl, rfl⟩ := Program.Leaves.of_done goesOn
      exact .inl ⟨Nat.le_refl 1, by simp, fun result isDone => by cases isDone; exact ⟨_, rfl⟩⟩
    · exact .inr ⟨since, rfl, goesOn⟩
    · obtain ⟨rfl, rfl⟩ := Program.Leaves.of_done goesOn
      exact .inl ⟨Nat.le_refl 1, by simp, fun result isDone => by cases isDone; exact ⟨_, rfl⟩⟩

end Host

namespace FileLock

/-! ## Attempts -/

variable (lock : FileLock)

/-- Take the lock, with a number of attempts that is given. -/
def acquireWithin (budget : Nat) : Action Nat := do
  let start ← Host.ask .now
  Host.makeDirectories lock.path.parent fun obstacle =>
    .system ⟨obstacle.errno, "mkdir", some obstacle.path.text⟩
  lock.attempts start budget false

theorem acquireWithin_maxAttempts : lock.acquireWithin lock.maxAttempts = lock.acquire := rfl

/-- Why the loop fails that has no attempts left. -/
def outOfAttempts : Failure := .stated "The clock does not advance"

/-- Why the loop fails that has waited for too long. -/
def tooLate : Failure := .ofFault (.lockTimeout lock.path.text lock.timeoutShown)

/-- An attempt to create the file. -/
def attempted (answer : Except Disk.Errno Nat) : Exchange interface :=
  ⟨.disk (.openNew lock.path), answer⟩

/-- A reading of the clock. -/
def read (time : Int) : Exchange interface := ⟨.now, time⟩

/-- The pause between two attempts. -/
def paused : Exchange interface := ⟨.pause lock.pause, ()⟩

/-- The line that tells at a time that the lock is waited for. -/
def waitLine (time : Int) : String :=
  Log.Event.line (Calendar.isoText time) ⟨.debug, "lock.wait", ⟨none, some lock.path.text, none⟩⟩

/-- How it is told that the lock is waited for: not if it has been told before, or if the logger does
not let it pass. -/
inductive Announces : Bool → List (Exchange interface) → Prop
  | before : Announces true []
  | silent (stopped : lock.logger.passes .debug = false) : Announces false []
  | told (passes : lock.logger.passes .debug = true) (time : Int) :
      Announces false [read time, ⟨.print .output (lock.waitLine time ++ "\n"), ()⟩]

/-- So many rounds that find the file there in time, and wait. -/
inductive Waits (start : Int) : Bool → Nat → List (Exchange interface) → Prop
  | nothing (waited : Bool) : Waits start waited 0 []
  | round {waited : Bool} {count : Nat} {now : Int} {announced since : List (Exchange interface)}
      (inTime : lock.timeout.ltNat (now - start).toNat = false)
      (announces : lock.Announces waited announced) (goesOn : Waits start true count since) :
      Waits start waited (count + 1)
        (lock.attempted (.error .exists) :: read now :: announced ++ lock.paused :: since)

/-- A round that does not wait, as far as it has come, with a number of attempts left. -/
inductive Stops (start : Int) (waited : Bool) :
    Nat → List (Exchange interface) → Program interface (Except Failure Nat) → Prop
  | spent : Stops start waited 0 [] (.done (.error outOfAttempts))
  | creates {spare handle : Nat} {since : List (Exchange interface)}
      {left : Program interface (Except Failure Nat)}
      (signs : (lock.sign handle >>= fun _ => pure handle : Action Nat).toProgram.Leaves since left) :
      Stops start waited (spare + 1) (lock.attempted (.ok handle) :: since) left
  | refused {spare : Nat} {errno : Disk.Errno} (other : errno ≠ .exists) :
      Stops start waited (spare + 1) [lock.attempted (.error errno)]
        (.done (.error (lock.callFailure "open" errno)))
  | late {spare : Nat} {now : Int} (isLate : lock.timeout.ltNat (now - start).toNat = true) :
      Stops start waited (spare + 1) [lock.attempted (.error .exists), read now]
        (.done (.error lock.tooLate))
  | underway {spare : Nat} (now : Int) {announced said : List (Exchange interface)}
      {left : Program interface (Except Failure Nat)} (announces : lock.Announces waited announced)
      (part : said <+: lock.attempted (.error .exists) :: read now :: announced)
      (asks : ∀ result, left ≠ .done result) : Stops start waited (spare + 1) said left

section

variable {lock} {start : Int} {waited : Bool} {spare : Nat} {said : List (Exchange interface)}
  {left : Program interface (Except Failure Nat)}

theorem exists_announces (lock : FileLock) (waited : Bool) :
    ∃ announced, lock.Announces waited announced := by
  cases waited with
  | true => exact ⟨_, .before⟩
  | false =>
      cases passes : lock.logger.passes .debug with
      | true => exact ⟨_, .told passes 0⟩
      | false => exact ⟨_, .silent passes⟩

/-- Telling that the lock is waited for comes to an end, or is under way. -/
theorem announce_leaves {next : Action Nat}
    (leaves : (lock.announce >>= fun _ => next : Action Nat).toProgram.Leaves said left) :
    (∃ announced, lock.Announces false announced ∧ said <+: announced
        ∧ ∀ result, left ≠ .done result)
      ∨ ∃ announced since, lock.Announces false announced ∧ said = announced ++ since
        ∧ next.toProgram.Leaves since left := by
  unfold announce Host.log at leaves
  split at leaves
  next passes =>
    rcases Program.Leaves.of_ask leaves with ⟨rfl, asks⟩ | ⟨time, since, rfl, prints⟩
    · exact .inl ⟨_, .told passes 0, List.nil_prefix, asks⟩
    · rcases Program.Leaves.of_ask prints with ⟨rfl, asks⟩ | ⟨_, after, rfl, goesOn⟩
      · exact .inl ⟨_, .told passes time, ⟨_, rfl⟩, asks⟩
      · exact .inr ⟨_, after, .told passes time, rfl, goesOn⟩
  next stopped => exact .inr ⟨_, said, .silent (by simpa using stopped), rfl, leaves⟩

/-- What follows an attempt in time: the waiting is told, unless it has been told before, and then
there is a pause. -/
theorem waiting_leaves {next : Action Nat}
    (leaves : (do
      if !waited then lock.announce
      Host.ask (.pause lock.pause)
      next : Action Nat).toProgram.Leaves said left) :
    (∃ announced, lock.Announces waited announced ∧ said <+: announced
        ∧ ∀ result, left ≠ .done result)
      ∨ ∃ announced since, lock.Announces waited announced
        ∧ said = announced ++ lock.paused :: since ∧ next.toProgram.Leaves since left := by
  cases waited with
  | true =>
      rcases Host.ask_leaves leaves with ⟨rfl, asks⟩ | ⟨_, since, rfl, goesOn⟩
      · exact .inl ⟨[], .before, List.nil_prefix, asks⟩
      · exact .inr ⟨[], since, .before, rfl, goesOn⟩
  | false =>
      rcases announce_leaves leaves with underway | ⟨announced, since, announces, rfl, goesOn⟩
      · exact .inl underway
      · rcases Host.ask_leaves goesOn with ⟨rfl, asks⟩ | ⟨_, since, rfl, ends⟩
        · exact .inl ⟨announced, announces, by simp, asks⟩
        · exact .inr ⟨announced, since, announces, rfl, ends⟩

/-- **A round of the loop** waits and goes on, or does not wait. -/
theorem attempts_leaves
    (leaves : (lock.attempts start (spare + 1) waited).toProgram.Leaves said left) :
    (∃ now announced since, lock.timeout.ltNat (now - start).toNat = false
        ∧ lock.Announces waited announced
        ∧ said = lock.attempted (.error .exists) :: read now :: announced ++ lock.paused :: since
        ∧ (lock.attempts start spare true).toProgram.Leaves since left)
      ∨ lock.Stops start waited (spare + 1) said left := by
  obtain ⟨_, some⟩ := exists_announces lock waited
  unfold attempts at leaves
  rcases Host.tryCall_leaves leaves with ⟨rfl, asks⟩ | ⟨answer, since, rfl, goesOn⟩
  · exact .inr (.underway start some List.nil_prefix asks)
  · cases answer with
    | ok handle => exact .inr (.creates goesOn)
    | error errno =>
        change (if errno = .exists then _ else _ : Action Nat).toProgram.Leaves since left at goesOn
        split at goesOn
        next isExists =>
          subst isExists
          rcases Host.ask_leaves goesOn with ⟨rfl, asks⟩ | ⟨now, after, rfl, decides⟩
          · exact .inr (.underway start some ⟨_, rfl⟩ asks)
          · change (if lock.timeout.ltNat (now - start).toNat = true then _ else _ :
              Action Nat).toProgram.Leaves after left at decides
            split at decides
            next isLate =>
              obtain ⟨rfl, rfl⟩ := Program.Leaves.of_done decides
              exact .inr (.late isLate)
            next inTime =>
              rcases waiting_leaves decides with ⟨announced, announces, part, asks⟩
                | ⟨announced, rest, announces, rfl, triesAgain⟩
              · refine .inr (.underway now announces ?_ asks)
                exact (List.prefix_append_right_inj [_, read now]).mpr part
              · exact .inl ⟨now, announced, rest, by simpa using inTime, announces, rfl, triesAgain⟩
        next other =>
          obtain ⟨rfl, rfl⟩ := Program.Leaves.of_done goesOn
          exact .inr (.refused other)

/-- **A run of the loop** is some rounds that wait, and one that does not. -/
theorem loop_leaves {budget : Nat}
    (leaves : (lock.attempts start budget waited).toProgram.Leaves said left) :
    ∃ count rounds spare last, budget = count + spare ∧ said = rounds ++ last
      ∧ lock.Waits start waited count rounds
      ∧ lock.Stops start (waited || count != 0) spare last left := by
  induction budget generalizing waited said with
  | zero =>
      obtain ⟨rfl, rfl⟩ := Program.Leaves.of_done leaves
      exact ⟨0, [], 0, [], rfl, rfl, .nothing _, .spent⟩
  | succ budget ih =>
      rcases attempts_leaves leaves with
        ⟨now, announced, since, inTime, announces, rfl, triesAgain⟩ | stops
      · obtain ⟨count, rounds, spare, last, rfl, rfl, waits, stops⟩ := ih triesAgain
        refine ⟨count + 1, _, spare, last, by omega, ?_, .round inTime announces waits, ?_⟩
        · rw [List.append_assoc]
          rfl
        · simpa using stops
      · exact ⟨0, [], budget + 1, said, (Nat.zero_add _).symm, rfl, .nothing _, by simpa using stops⟩

/-- Every round that waits can come about. -/
theorem attempts_wait {now : Int} {announced : List (Exchange interface)}
    (inTime : lock.timeout.ltNat (now - start).toNat = false)
    (announces : lock.Announces waited announced) :
    (lock.attempts start (spare + 1) waited).toProgram.Leaves
      (lock.attempted (.error .exists) :: read now :: announced ++ [lock.paused])
      (lock.attempts start spare true).toProgram := by
  rw [attempts]
  refine .next (.next ?_)
  change (if lock.timeout.ltNat (now - start).toNat = true then _ else _ :
    Action Nat).toProgram.Leaves (announced ++ [lock.paused]) _
  rw [if_neg (by simp [inTime])]
  cases announces with
  | before => exact .next (.nothing _)
  | silent stopped =>
      change (lock.announce >>= fun _ => _ : Action Nat).toProgram.Leaves _ _
      unfold announce Host.log
      rw [if_neg (by simp [stopped])]
      exact .next (.nothing _)
  | told passes time =>
      change (lock.announce >>= fun _ => _ : Action Nat).toProgram.Leaves _ _
      unfold announce Host.log
      rw [if_pos passes]
      exact .next (.next (.next (.nothing _)))

/-- Rounds that wait can come about one after another. -/
theorem Waits.leaves {count : Nat} {rounds : List (Exchange interface)}
    (waits : lock.Waits start waited count rounds) (spare : Nat) :
    (lock.attempts start (count + spare) waited).toProgram.Leaves rounds
      (lock.attempts start spare (waited || count != 0)).toProgram := by
  induction waits with
  | nothing waited =>
      rw [Nat.zero_add, bne_self_eq_false, Bool.or_false]
      exact .nothing _
  | @round waited count now announced since inTime announces goesOn ih =>
      have first : (lock.attempts start (count + spare + 1) waited).toProgram.Leaves _
          (lock.attempts start (count + spare) true).toProgram :=
        attempts_wait inTime announces
      have isLast : (waited || count + 1 != 0) = (true || count != 0) := by simp
      rw [isLast, Nat.add_right_comm, List.append_cons]
      exact first.append ih

/-- The loop can end too late. -/
theorem attempts_late {now : Int}
    (isLate : lock.timeout.ltNat (now - start).toNat = true) :
    (lock.attempts start (spare + 1) waited).toProgram.Leaves
      [lock.attempted (.error .exists), read now] (.done (.error lock.tooLate)) := by
  rw [attempts]
  refine .next (.next ?_)
  change (if lock.timeout.ltNat (now - start).toNat = true then _ else _ :
    Action Nat).toProgram.Leaves [] _
  rw [if_pos isLate]
  exact .nothing _

end

/-! ## What is asked -/

/-- Whether a request is an attempt to create a file. -/
def isOpening : Request → Bool
  | .disk (.openNew _) => true
  | _ => false

/-- Whether a request prints something. -/
def isPrinting : Request → Bool
  | .print _ _ => true
  | _ => false

/-- How many attempts have been made. -/
def openings (said : List (Exchange interface)) : Nat :=
  said.countP fun exchange => isOpening exchange.request

/-- How often something has been printed. -/
def printings (said : List (Exchange interface)) : Nat :=
  said.countP fun exchange => isPrinting exchange.request

section

variable {lock} {start : Int} {waited : Bool} {count spare : Nat}
  {said rounds last announced : List (Exchange interface)}
  {left : Program interface (Except Failure Nat)}

theorem openings_append (before since : List (Exchange interface)) :
    openings (before ++ since) = openings before + openings since := List.countP_append

theorem printings_append (before since : List (Exchange interface)) :
    printings (before ++ since) = printings before + printings since := List.countP_append

@[simp] theorem openings_attempted (answer : Except Disk.Errno Nat)
    (since : List (Exchange interface)) :
    openings (lock.attempted answer :: since) = openings since + 1 := List.countP_cons_of_pos rfl

@[simp] theorem openings_read (time : Int) (since : List (Exchange interface)) :
    openings (read time :: since) = openings since :=
  List.countP_cons_of_neg Bool.false_ne_true

@[simp] theorem openings_paused (since : List (Exchange interface)) :
    openings (lock.paused :: since) = openings since :=
  List.countP_cons_of_neg Bool.false_ne_true

@[simp] theorem printings_attempted (answer : Except Disk.Errno Nat)
    (since : List (Exchange interface)) :
    printings (lock.attempted answer :: since) = printings since :=
  List.countP_cons_of_neg Bool.false_ne_true

@[simp] theorem printings_read (time : Int) (since : List (Exchange interface)) :
    printings (read time :: since) = printings since :=
  List.countP_cons_of_neg Bool.false_ne_true

@[simp] theorem printings_paused (since : List (Exchange interface)) :
    printings (lock.paused :: since) = printings since :=
  List.countP_cons_of_neg Bool.false_ne_true

/-- How often it may still be told that the lock is waited for. -/
def toTell (waited : Bool) : Nat := if waited then 0 else 1

theorem Announces.counts (announces : lock.Announces waited announced) :
    openings announced = 0 ∧ announced.length = 2 * printings announced
      ∧ printings announced ≤ toTell waited := by
  cases announces with
  | before | silent => exact ⟨rfl, rfl, Nat.zero_le _⟩
  | told _ time => exact ⟨rfl, rfl, Nat.le_refl 1⟩

theorem Waits.counts (waits : lock.Waits start waited count rounds) :
    openings rounds = count ∧ rounds.length = 3 * count + 2 * printings rounds
      ∧ printings rounds + toTell (waited || count != 0) ≤ toTell waited := by
  induction waits with
  | nothing waited => simp [openings, printings]
  | @round waited count now announced since inTime announces goesOn ih =>
      obtain ⟨opened, asked, told⟩ := announces.counts
      obtain ⟨openedOn, askedOn, toldOn⟩ := ih
      rw [openings_append, printings_append, openings_attempted, openings_read, openings_paused,
        printings_attempted, printings_read, printings_paused, List.length_append,
        List.length_cons, List.length_cons, List.length_cons]
      have toldOnce : toTell (waited || count + 1 != 0) = 0 := by simp [toTell]
      have toldBefore : printings since = 0 := by
        have none : toTell true = 0 := rfl
        omega
      omega

/-- A request that neither is an attempt nor prints. -/
def Quiet (request : Request) : Prop :=
  isOpening request = false ∧ isPrinting request = false

theorem counts_of_quiet (each : ∀ exchange ∈ said, Quiet exchange.request) :
    openings said = 0 ∧ printings said = 0 :=
  ⟨List.countP_eq_zero.mpr fun exchange member => by simp [(each exchange member).1],
    List.countP_eq_zero.mpr fun exchange member => by simp [(each exchange member).2]⟩

theorem release_asks (handle : Nat) : (lock.release handle).AsksAtMost Quiet 2 := by
  unfold release
  refine .ask ⟨rfl, rfl⟩ fun closed => ?_
  cases closed with
  | error errno =>
      change (if _ then _ else _ : Action Unit).AsksAtMost Quiet 1
      split <;> exact .done _ _
  | ok =>
      refine .ask ⟨rfl, rfl⟩ fun removed => ?_
      cases removed with
      | ok => exact .done _ _
      | error errno =>
          change (if _ then _ else _ : Action Unit).AsksAtMost Quiet 0
          split <;> exact .done _ _

/-- The record of a lock is written without an attempt and without a word. -/
theorem sign_asks (handle : Nat) :
    (lock.sign handle >>= fun _ => pure handle : Action Nat).AsksAtMost Quiet 5 := by
  unfold sign
  refine .ask ⟨rfl, rfl⟩ fun processId => .ask ⟨rfl, rfl⟩ fun time =>
    .ask ⟨rfl, rfl⟩ fun written => ?_
  cases written with
  | ok => exact .done _ _
  | error errno =>
      change ((lock.release handle >>= fun _ => Attempt.fail _ : Action Unit) >>= fun _ =>
        pure handle : Action Nat).AsksAtMost Quiet (2 + 0 + 0)
      exact .bind (.bind (release_asks handle) fun _ => .fail _) fun _ => .pure _

theorem Stops.counts (stops : lock.Stops start waited spare last left) :
    openings last ≤ 1 ∧ last.length ≤ 6 * openings last ∧ printings last ≤ toTell waited := by
  cases stops with
  | spent => exact ⟨Nat.zero_le _, Nat.le_refl 0, Nat.zero_le _⟩
  | @creates _ handle since _ signs =>
      obtain ⟨few, each⟩ := (sign_asks handle).of_leaves signs
      obtain ⟨opened, told⟩ := counts_of_quiet each
      rw [openings_attempted, printings_attempted, opened, told, List.length_cons]
      omega
  | refused other => exact ⟨Nat.le_refl 1, Nat.le_of_ble_eq_true rfl, Nat.zero_le _⟩
  | late isLate => exact ⟨Nat.le_refl 1, Nat.le_of_ble_eq_true rfl, Nat.zero_le _⟩
  | @underway _ now announced _ _ announces part asks =>
      obtain ⟨opened, asked, told⟩ := announces.counts
      rcases List.prefix_cons_iff.mp part with rfl | ⟨rest, rfl, starts⟩
      · exact ⟨Nat.zero_le _, Nat.le_refl 0, Nat.zero_le _⟩
      · have opens : openings rest ≤ openings (read now :: announced) := starts.sublist.countP_le
        have prints : printings rest ≤ printings (read now :: announced) := starts.sublist.countP_le
        have shorter := starts.length_le
        have most : toTell waited ≤ 1 := by cases waited <;> decide
        rw [openings_read] at opens
        rw [printings_read] at prints
        rw [openings_attempted, printings_attempted, List.length_cons]
        rw [List.length_cons] at shorter
        omega

/-! ## How an acquisition ends -/

/-- The record of a lock that is held. -/
def signed (handle processId : Nat) (time : Int) : List (Exchange interface) :=
  [⟨.processId, processId⟩, read time, ⟨.disk (.write handle (record processId time)), .ok ()⟩]

/-- Whether a failure is one of the operating system. -/
def IsSystem (failure : Failure) : Prop :=
  ∃ error, failure = .system error

theorem release_fails (handle : Nat) :
    (lock.release handle).FailsWith (fun _ _ => True) IsSystem := by
  unfold release
  refine .ask fun closed _ => ?_
  cases closed with
  | error errno =>
      change (if _ then _ else _ : Action Unit).FailsWith (fun _ _ => True) IsSystem
      split
      · exact .pure ()
      · exact .fail ⟨_, rfl⟩
  | ok =>
      refine .ask fun removed _ => ?_
      cases removed with
      | ok => exact .done (.ok ())
      | error errno =>
          change (if _ then _ else _ : Action Unit).FailsWith (fun _ _ => True) IsSystem
          split
          · exact .pure ()
          · exact .fail ⟨_, rfl⟩

/-- Whether a result is a failure of the operating system. -/
def SystemFails {α : Type} (result : Except Failure α) : Prop :=
  ∃ error, result = .error (.system error)

/-- A lock that is given back because its record cannot be written is not held. -/
theorem release_bind_fails (handle : Nat) (error : Disk.CallError) :
    ((lock.release handle >>= fun _ => Attempt.fail (.system error) : Action Unit) >>= fun _ =>
      pure handle : Action Nat).toProgram.Ends (fun _ _ => True) SystemFails := by
  have failed : (lock.release handle >>= fun _ => Attempt.fail (.system error) :
      Action Unit).toProgram.Ends (fun _ _ => True) SystemFails := by
    refine Program.Ends.bind (release_fails handle) fun released only => ?_
    cases only with
    | ok => exact .done ⟨_, rfl⟩
    | error isSystem =>
        obtain ⟨error, rfl⟩ := isSystem
        exact .done ⟨error, rfl⟩
  refine Program.Ends.bind failed fun released fails => ?_
  obtain ⟨error, rfl⟩ := fails
  exact .done ⟨error, rfl⟩

/-- A lock whose file has been created is held, unless its record cannot be written. -/
theorem sign_leaves {handle : Nat} {result : Except Failure Nat}
    (signs : (lock.sign handle >>= fun _ => pure handle : Action Nat).toProgram.Leaves said
      (.done result)) :
    (result = .ok handle ∧ ∃ processId time, said = signed handle processId time)
      ∨ SystemFails result
        ∧ ∃ content errno, ⟨.disk (.write handle content), .error errno⟩ ∈ said := by
  unfold sign at signs
  obtain ⟨processId, since, rfl, reads⟩ := Program.Leaves.of_ask_done signs
  obtain ⟨time, since, rfl, writes⟩ := Program.Leaves.of_ask_done reads
  obtain ⟨written, since, rfl, ends⟩ := Program.Leaves.of_ask_done writes
  cases written with
  | ok =>
      obtain ⟨rfl, isResult⟩ := Program.Leaves.of_done ends
      cases isResult
      exact .inl ⟨rfl, processId, time, rfl⟩
  | error errno =>
      exact .inr ⟨(release_bind_fails handle _).of_leaves ends, _, errno,
        List.mem_cons_of_mem _ (List.mem_cons_of_mem _ List.mem_cons_self)⟩

/-- **How the last round ends**: without an attempt left, with the lock, too late, or with a failure
of the operating system. -/
theorem Stops.ends {result : Except Failure Nat}
    (stops : lock.Stops start waited spare last (.done result)) :
    result = .error outOfAttempts ∧ spare = 0
      ∨ (∃ handle processId time, result = .ok handle
          ∧ last = lock.attempted (.ok handle) :: signed handle processId time)
      ∨ (∃ now, result = .error lock.tooLate ∧ last = [lock.attempted (.error .exists), read now]
          ∧ lock.timeout.ltNat (now - start).toNat = true)
      ∨ SystemFails result := by
  generalize isDone : Program.done result = left at stops
  cases stops with
  | spent =>
      cases isDone
      exact .inl ⟨rfl, rfl⟩
  | creates signs =>
      subst isDone
      rcases sign_leaves signs with ⟨rfl, processId, time, rfl⟩ | ⟨fails, _⟩
      · exact .inr (.inl ⟨_, processId, time, rfl, rfl⟩)
      · exact .inr (.inr (.inr fails))
  | refused other =>
      cases isDone
      exact .inr (.inr (.inr ⟨_, rfl⟩))
  | late isLate =>
      cases isDone
      exact .inr (.inr (.inl ⟨_, rfl, rfl, isLate⟩))
  | underway now announces part asks => exact absurd isDone.symm (asks _)

/-- What is not in the first of two lists is in the second. -/
theorem exists_append_of_not_mem {α : Type} {element : α} {first second before since : List α}
    (notThere : element ∉ first) (same : first ++ second = before ++ element :: since) :
    ∃ middle, before = first ++ middle ∧ second = middle ++ element :: since := by
  rcases List.append_eq_append_iff.mp same with goesOn | ⟨middle, rfl, rest⟩
  · exact goesOn
  · cases middle with
    | nil => exact ⟨[], by simp, by simpa using rest.symm⟩
    | cons other middle =>
        obtain ⟨rfl, _⟩ := List.cons.inj rest
        simp at notThere

theorem not_mem_of_openings (answer : Except Disk.Errno Nat) (nothing : openings said = 0) :
    lock.attempted answer ∉ said :=
  fun member => absurd (show isOpening (lock.attempted answer).request = true from rfl)
    (List.countP_eq_zero.mp nothing _ member)

theorem attempted_ok_ne (handle : Nat) (errno : Disk.Errno) :
    lock.attempted (.ok handle) ≠ lock.attempted (.error errno) := by
  intro same
  cases same

theorem attempted_ne_read (answer : Except Disk.Errno Nat) (time : Int) :
    lock.attempted answer ≠ read time := by
  intro same
  cases same

/-- Who waits has not created the file. -/
theorem Waits.not_mem (waits : lock.Waits start waited count rounds) (handle : Nat) :
    lock.attempted (.ok handle) ∉ rounds := by
  induction waits with
  | nothing => exact List.not_mem_nil
  | round inTime announces goesOn ih =>
      have untold : lock.attempted _ ∉ _ := not_mem_of_openings (.ok handle) announces.counts.1
      have unpaused : lock.attempted (.ok handle) ≠ lock.paused := by
        intro same
        cases same
      simp [attempted_ok_ne, attempted_ne_read, untold, unpaused, ih]

/-- An attempt that creates the file is the last one. -/
theorem Stops.of_created {begun since : List (Exchange interface)} {handle : Nat}
    (stops : lock.Stops start waited spare (begun ++ lock.attempted (.ok handle) :: since) left) :
    begun = [] ∧ (lock.sign handle >>= fun _ => pure handle : Action Nat).toProgram.Leaves since
      left := by
  generalize isLast : begun ++ lock.attempted (.ok handle) :: since = last at stops
  have member : lock.attempted (.ok handle) ∈ last := isLast ▸ by simp
  cases stops with
  | spent => cases member
  | creates signs =>
      cases begun with
      | nil =>
          obtain ⟨isHandle, rfl⟩ := List.cons.inj isLast
          cases isHandle
          exact ⟨rfl, signs⟩
      | cons first begun =>
          obtain ⟨_, rfl⟩ := List.cons.inj isLast
          have quiet := counts_of_quiet ((sign_asks _).of_leaves signs).2
          exact absurd (List.mem_append_right _ List.mem_cons_self)
            (not_mem_of_openings (.ok handle) quiet.1)
  | refused other => simp [attempted_ok_ne] at member
  | late isLate => simp [attempted_ok_ne, attempted_ne_read] at member
  | underway now announces part asks =>
      have untold : lock.attempted _ ∉ _ := not_mem_of_openings (.ok handle) announces.counts.1
      have member := part.subset member
      simp [attempted_ok_ne, attempted_ne_read, untold] at member

/-- Making the directory of the file. -/
def madeDirectory (lock : FileLock) : Exchange interface :=
  ⟨.disk (.makeDirectories lock.path.parent), .ok none⟩

@[simp] theorem openings_madeDirectory (since : List (Exchange interface)) :
    openings (lock.madeDirectory :: since) = openings since :=
  List.countP_cons_of_neg Bool.false_ne_true

@[simp] theorem printings_madeDirectory (since : List (Exchange interface)) :
    printings (lock.madeDirectory :: since) = printings since :=
  List.countP_cons_of_neg Bool.false_ne_true

/-- Before the loop the clock is read and the directory is made. -/
theorem acquireWithin_leaves {budget : Nat}
    (leaves : (lock.acquireWithin budget).toProgram.Leaves said left) :
    said.length ≤ 2 ∧ (∀ exchange ∈ said, Quiet exchange.request)
        ∧ (∀ result, left = .done result → SystemFails result)
      ∨ ∃ start since, said = read start :: lock.madeDirectory :: since
        ∧ (lock.attempts start budget false).toProgram.Leaves since left := by
  unfold acquireWithin at leaves
  rcases Host.ask_leaves leaves with ⟨rfl, asks⟩ | ⟨start, since, rfl, makes⟩
  · exact .inl ⟨Nat.zero_le _, List.forall_mem_nil _, fun result isDone =>
      absurd isDone (asks result)⟩
  · rcases Host.makeDirectories_leaves makes with ⟨few, each, failed⟩ | ⟨after, rfl, goesOn⟩
    · refine .inl ⟨Nat.succ_le_succ few, ?_, fun result isDone => ?_⟩
      · refine List.forall_mem_cons.mpr ⟨⟨rfl, rfl⟩, fun exchange member => ?_⟩
        rw [each exchange member]
        exact ⟨rfl, rfl⟩
      · obtain ⟨obstacle, rfl⟩ := failed result isDone
        exact ⟨_, rfl⟩
    · exact .inr ⟨start, after, rfl, goesOn⟩

end

end FileLock

end DocStore
