import DocStore.Proofs.Lock.Attempts
import Mathlib.Tactic.IntervalCases
/-!
# How long a lock is waited for

A lock is waited for until the clock shows more than the timeout since the start.  The clock is any
that goes on by the length of a pause during each (`Ticks`).  Before each pause it has been read and
was in time (`Waits.in_time`), so the timeout bounds the number of rounds that wait, whatever others
do: with lengths of any kind by the quotient of the two (`Waits.lt_attemptLimit?`), and in whole
milliseconds by the usual number of attempts (`Waits.lt_maxAttempts`).

`acquires_in_bounds` puts together what is known of every acquisition: how many attempts it makes,
that it tells at most once that it waits, and how it ends.
-/

set_option autoImplicit false

namespace DocStore

open Host (Action Request interface)

/-! ## Numbers as times -/

namespace Number

/-- Whether a number is below or equal to a whole number. -/
def leInt : Number → Int → Prop
  | .finite negative magnitude, time =>
      (if negative then -(magnitude.steps : Int) else magnitude.steps) ≤ time * stepsOfOne
  | .infinite negative, _ => negative = true
  | .undefined, _ => False

instance (value : Number) (time : Int) : Decidable (value.leInt time) :=
  match value with
  | .finite _ _ => inferInstanceAs (Decidable (_ ≤ _))
  | .infinite _ => inferInstanceAs (Decidable (_ = true))
  | .undefined => inferInstanceAs (Decidable False)

/-- The steps of the size of a number; nothing of one that is not finite. -/
def steps? : Number → Option Nat
  | .finite _ magnitude => some magnitude.steps
  | .infinite _ | .undefined => none

theorem stepsOfOne_pos : 0 < stepsOfOne := by
  decide +kernel

section

variable {value : Number}

/-- A number above zero is infinite or has steps. -/
theorem cases_of_pos (positive : zero.lt value = true) :
    value = .infinite false
      ∨ ∃ magnitude, value = .finite false magnitude ∧ 0 < magnitude.steps := by
  match value with
  | .finite true magnitude =>
      have below : (magnitude.steps : Int) < 0 := by
        simpa [lt, zero, Magnitude.zero] using positive
      omega
  | .finite false magnitude =>
      exact .inr ⟨magnitude, rfl, by simpa [lt, zero, Magnitude.zero] using positive⟩
  | .infinite true => cases positive
  | .infinite false => exact .inl rfl
  | .undefined => cases positive

/-- A number that is not below zero is infinite or finite, with a sign only if it is zero. -/
theorem cases_of_nonneg (defined : value ≠ .undefined) (nonnegative : value.lt zero = false) :
    value = .infinite false ∨ ∃ negative magnitude, value = .finite negative magnitude
      ∧ (negative = true → magnitude.steps = 0) := by
  match value with
  | .finite true magnitude =>
      refine .inr ⟨true, magnitude, rfl, fun _ => ?_⟩
      simpa [lt, zero, Magnitude.zero] using nonnegative
  | .finite false magnitude => exact .inr ⟨false, magnitude, rfl, nofun⟩
  | .infinite true => cases nonnegative
  | .infinite false => exact .inl rfl
  | .undefined => exact absurd rfl defined

/-- Nothing is below a number that is not below zero but what is above zero. -/
theorem ltNat_zero (nonnegative : value.lt zero = false) : value.ltNat 0 = false := by
  match value with
  | .finite true magnitude =>
      simpa [lt, ltNat, zero, Magnitude.zero] using nonnegative
  | .finite false magnitude => simp [ltNat]
  | .infinite true => cases nonnegative
  | .infinite false | .undefined => rfl

/-- A whole number does not exceed a number that is not below zero when its steps do not. -/
theorem mul_le_of_ltNat_eq_false {steps whole : Nat} (nonnegative : value.lt zero = false)
    (isSteps : value.steps? = some steps) (inTime : value.ltNat whole = false) :
    whole * stepsOfOne ≤ steps := by
  have defined : value ≠ .undefined := by
    rintro rfl
    cases isSteps
  rcases cases_of_nonneg defined nonnegative with rfl | ⟨negative, magnitude, rfl, signed⟩
  · cases isSteps
  · cases isSteps
    cases negative with
    | false => simpa [ltNat] using inTime
    | true =>
        have nothing : whole = 0 ∧ magnitude.steps = 0 := by simpa [ltNat] using inTime
        simp [nothing]

end

end Number

/-! ## The clock -/

/-- A clock, which shows a time before each of some exchanges, is the one that is read there.  It
never goes back, and it goes on by a length at least during each pause. -/
structure Ticks (length : Number) (said : List (Exchange interface)) (shows : Nat → Int) : Prop where
  forward : ∀ place later, place ≤ later → shows place ≤ shows later
  reads : ∀ place time, said[place]? = some ⟨.now, time⟩ → shows place = time
  pauses : ∀ place milliseconds, said[place]? = some ⟨.pause milliseconds, ()⟩ →
    length.leInt (shows (place + 1) - shows place)

namespace Ticks

variable {length : Number} {before since : List (Exchange interface)} {shows : Nat → Int}

theorem left (ticks : Ticks length (before ++ since) shows) : Ticks length before shows where
  forward := ticks.forward
  reads place time there := ticks.reads place time (List.getElem?_append_left
    (List.getElem?_eq_some_iff.mp there).1 ▸ there)
  pauses place milliseconds there := ticks.pauses place milliseconds (List.getElem?_append_left
    (List.getElem?_eq_some_iff.mp there).1 ▸ there)

theorem right (ticks : Ticks length (before ++ since) shows) :
    Ticks length since fun place => shows (place + before.length) where
  forward _ _ earlier := ticks.forward _ _ (Nat.add_le_add_right earlier _)
  reads place time there := ticks.reads _ time (by
    rwa [List.getElem?_append_right (Nat.le_add_left _ _), Nat.add_sub_cancel])
  pauses place milliseconds there := by
    have later := ticks.pauses (place + before.length) milliseconds (by
      rwa [List.getElem?_append_right (Nat.le_add_left _ _), Nat.add_sub_cancel])
    rwa [Nat.add_right_comm] at later

end Ticks

namespace FileLock

section

variable {lock : FileLock} {start : Int} {waited : Bool}

/-! ## Time -/

/-- **Before each pause the clock was in time**: when so many rounds have waited, the time before
them and the pauses before the last one, each of so many steps at least, are no longer than the
timeout. -/
theorem Waits.in_time {step : Nat}
    (advances : ∀ time, lock.retry.leInt time → (step : Int) ≤ time * stepsOfOne) {count : Nat}
    {rounds : List (Exchange interface)} (waits : lock.Waits start waited (count + 1) rounds)
    {shows : Nat → Int} (ticks : Ticks lock.retry rounds shows) {gone : Int}
    (before : gone ≤ (shows 0 - start) * stepsOfOne) :
    ∃ elapsed : Nat, lock.timeout.ltNat elapsed = false
      ∧ gone + count * step ≤ elapsed * stepsOfOne := by
  have isUnit : (0 : Int) ≤ stepsOfOne := Int.natCast_nonneg _
  induction count generalizing waited rounds shows gone with
  | zero =>
      cases waits with
      | @round _ _ now announced since inTime announces goesOn =>
          have isNow : shows 1 = now := ticks.reads 1 now rfl
          have later : shows 0 ≤ shows 1 := ticks.forward _ _ (Nat.zero_le 1)
          have elapsed : shows 0 - start ≤ (now - start).toNat := by omega
          have bound := Int.mul_le_mul_of_nonneg_right elapsed isUnit
          exact ⟨_, inTime, by omega⟩
  | succ count ih =>
      cases waits with
      | @round _ _ now announced since inTime announces goesOn =>
          have atPause := ticks.right
          have afterPause :=
            Ticks.right (show Ticks lock.retry ([lock.paused] ++ since) _ from atPause)
          let here := 0 + (announced.length + 2)
          let there := 0 + 1 + (announced.length + 2)
          have later := Int.sub_le_sub_right (ticks.forward _ _ (Nat.zero_le here)) start
          have goneOn : gone + step ≤ (shows there - start) * stepsOfOne :=
            calc gone + step
              _ ≤ (shows here - start) * stepsOfOne + (shows there - shows here) * stepsOfOne :=
                Int.add_le_add (before.trans (Int.mul_le_mul_of_nonneg_right later isUnit))
                  (advances _ (atPause.pauses 0 lock.pause rfl))
              _ = (shows there - start) * stepsOfOne := by
                rw [← Int.add_mul]
                congr 1
                omega
          obtain ⟨elapsed, stillInTime, fits⟩ := ih goesOn afterPause goneOn
          refine ⟨elapsed, stillInTime, ?_⟩
          rw [Int.natCast_succ, Int.add_mul, Int.one_mul]
          omega

/-- All pauses but the last one fit into a finite timeout. -/
theorem Waits.mul_le {step steps : Nat} (nonnegative : lock.timeout.lt .zero = false)
    (isSteps : lock.timeout.steps? = some steps)
    (advances : ∀ time, lock.retry.leInt time → (step : Int) ≤ time * stepsOfOne) {count : Nat}
    {rounds : List (Exchange interface)} (waits : lock.Waits start waited (count + 1) rounds)
    {shows : Nat → Int} (ticks : Ticks lock.retry rounds shows) (started : start ≤ shows 0) :
    count * step ≤ steps := by
  have before : (0 : Int) ≤ (shows 0 - start) * stepsOfOne :=
    Int.mul_nonneg (by omega) (Int.natCast_nonneg _)
  obtain ⟨elapsed, inTime, fits⟩ := waits.in_time advances ticks before
  have fits : count * step ≤ elapsed * stepsOfOne := by
    rw [Int.zero_add] at fits
    exact_mod_cast fits
  exact fits.trans (Number.mul_le_of_ltNat_eq_false nonnegative isSteps inTime)

end

section

variable (lock : FileLock)

/-- How many attempts the timeout leaves room for: a first one, one after each of the pauses that fit
into it, and a last one that is too late.  So many pauses fit as the quotient of the two lengths tells,
in whole numbers. -/
def attemptLimit? : Option Nat :=
  match lock.timeout.steps?, lock.retry.steps? with
  | some timeout, some retry => some (timeout / retry + 2)
  | some _, none => some 2
  | none, _ => none

end

section

variable {lock : FileLock} {time : Int}

/-- A time that is not below a length above zero is not below the steps of the length. -/
theorem steps_le_of_leInt {steps : Nat} (isSteps : lock.retry.steps? = some steps)
    (positive : Number.zero.lt lock.retry = true) :
    0 < steps ∧ ∀ time, lock.retry.leInt time → (steps : Int) ≤ time * stepsOfOne := by
  rcases Number.cases_of_pos positive with isRetry | ⟨magnitude, isRetry, somewhat⟩
  · rw [isRetry] at isSteps
    cases isSteps
  · rw [isRetry] at isSteps ⊢
    cases isSteps
    exact ⟨somewhat, fun _ reaches => reaches⟩

/-- No time is as long as a length that is not finite. -/
theorem not_leInt_of_infinite (infinite : lock.retry.steps? = none)
    (positive : Number.zero.lt lock.retry = true) : ¬ lock.retry.leInt time := by
  rcases Number.cases_of_pos positive with isRetry | ⟨magnitude, isRetry, _⟩
  · rw [isRetry]
    nofun
  · rw [isRetry] at infinite
    cases infinite

theorem pause_pos : 0 < lock.pause := by
  unfold pause
  split
  · split
    next isPause => exact isPause.1
    next => exact Nat.one_pos
  · exact Nat.one_pos

/-- A pause is one millisecond, or no longer than the length that is asked for. -/
theorem pause_eq_one_or_le {magnitude : Magnitude} (isRetry : lock.retry = .finite false magnitude) :
    lock.pause = 1 ∨ lock.pause * stepsOfOne ≤ magnitude.steps := by
  unfold pause
  rw [isRetry]
  dsimp only [Number.floor?, Magnitude.floor]
  split
  · exact .inr (Nat.div_mul_le_self _ _)
  · exact .inl rfl

/-- A time that is not below the length of a pause is not below the pause. -/
theorem pause_le_of_leInt (positive : Number.zero.lt lock.retry = true)
    (reaches : lock.retry.leInt time) :
    ((lock.pause * stepsOfOne : Nat) : Int) ≤ time * stepsOfOne := by
  have isUnit : (0 : Int) < stepsOfOne := Int.natCast_pos.mpr Number.stepsOfOne_pos
  rcases Number.cases_of_pos positive with isRetry | ⟨magnitude, isRetry, somewhat⟩
  · rw [isRetry] at reaches
    cases reaches
  · rw [isRetry] at reaches
    have reaches : (magnitude.steps : Int) ≤ time * stepsOfOne := reaches
    rcases pause_eq_one_or_le isRetry with isOne | shorter
    · have isLater : 0 * (stepsOfOne : Int) < time * stepsOfOne := by omega
      have isLater : 0 < time := Int.lt_of_mul_lt_mul_right isLater isUnit.le
      rw [isOne, Int.natCast_mul]
      exact Int.mul_le_mul_of_nonneg_right isLater isUnit.le
    · exact (Int.ofNat_le.mpr shorter).trans reaches

variable {start : Int} {waited : Bool} {count : Nat} {rounds : List (Exchange interface)}
  {shows : Nat → Int}

/-- There are fewer rounds that wait than there is time for attempts. -/
theorem Waits.lt_attemptLimit? {limit : Nat} (isLimit : lock.attemptLimit? = some limit)
    (nonnegative : lock.timeout.lt .zero = false) (positive : Number.zero.lt lock.retry = true)
    (waits : lock.Waits start waited count rounds) (ticks : Ticks lock.retry rounds shows)
    (started : start ≤ shows 0) : count < limit := by
  unfold attemptLimit? at isLimit
  cases count with
  | zero => split at isLimit <;> cases isLimit <;> exact Nat.succ_pos _
  | succ count =>
      split at isLimit
      next timeout retry isTimeout isRetry =>
        cases isLimit
        obtain ⟨somewhat, advances⟩ := steps_le_of_leInt isRetry positive
        have fits := waits.mul_le nonnegative isTimeout advances ticks started
        have := (Nat.le_div_iff_mul_le somewhat).mpr fits
        omega
      next timeout isTimeout isRetry =>
        cases isLimit
        -- No pause ends, so the length of a step is free, and one beyond the timeout leaves no room.
        have fits : count * (timeout + 1) ≤ timeout := waits.mul_le nonnegative isTimeout
          (fun _ reaches => absurd reaches (not_leInt_of_infinite isRetry positive)) ticks started
        have few : count * (timeout + 1) < 1 * (timeout + 1) := by omega
        have few : count < 1 := Nat.lt_of_mul_lt_mul_right few
        omega
      next => cases isLimit

/-- There are fewer rounds that wait than attempts that are made at most. -/
theorem Waits.lt_maxAttempts (finite : lock.timeout.isFinite = true)
    (nonnegative : lock.timeout.lt .zero = false) (positive : Number.zero.lt lock.retry = true)
    (waits : lock.Waits start waited count rounds) (ticks : Ticks lock.retry rounds shows)
    (started : start ≤ shows 0) : count < lock.maxAttempts := by
  have defined : lock.timeout ≠ .undefined := by
    intro isUndefined
    rw [isUndefined] at finite
    cases finite
  rcases Number.cases_of_nonneg defined nonnegative with
    isTimeout | ⟨negative, magnitude, isTimeout, signed⟩
  · rw [isTimeout] at finite
    cases finite
  · have isFloor : lock.timeout.floor? = some (magnitude.steps / stepsOfOne) := by
      rw [isTimeout]
      cases negative with
      | false => rfl
      | true => simp [Number.floor?, signed rfl]
    unfold maxAttempts
    rw [isFloor]
    dsimp only
    cases count with
    | zero => exact Nat.succ_pos _
    | succ count =>
        have fits := waits.mul_le nonnegative (by rw [isTimeout]; rfl)
          (fun _ => pause_le_of_leInt positive) ticks started
        rw [← Nat.mul_assoc, ← Nat.le_div_iff_mul_le Number.stepsOfOne_pos,
          ← Nat.le_div_iff_mul_le lock.pause_pos] at fits
        omega

end

/-- What is known of an acquisition, as far as it has come: `left` is what is left of it after it has
gone through `said`, with a number of attempts that it may make. -/
structure Acquires (lock : FileLock) (budget : Nat) (said : List (Exchange interface))
    (left : Program interface (Except Failure Nat)) : Prop where
  /-- There are no more attempts than there is time for. -/
  few : ∀ limit, lock.attemptLimit? = some limit → openings said ≤ limit
  /-- Every attempt is soon followed by the next one or by the end. -/
  short : said.length ≤ 3 * openings said + 7
  /-- Who ends well holds the lock: the last attempt has created the file, and the record stands in
  it. -/
  holds : ∀ handle, left = .done (.ok handle) → ∃ before processId time,
    said = before ++ lock.attempted (.ok handle) :: signed handle processId time
  /-- It is too late only when the last attempt has found the file there, and the clock, read right
  after it, shows more than the timeout since the start. -/
  late : left = .done (.error lock.tooLate) → ∃ start before now, ∃ elapsed : Nat,
    said.head? = some (read start)
      ∧ said = before ++ [lock.attempted (.error .exists), read now]
      ∧ now = start + elapsed ∧ lock.timeout.ltNat elapsed = true
  /-- An attempt that finds the lock free is the last one, and then the lock is held, unless the
  record cannot be written. -/
  free : ∀ before handle since, said = before ++ lock.attempted (.ok handle) :: since →
    openings since = 0 ∧ ∀ result, left = .done result →
      result = .ok handle
        ∨ SystemFails result
          ∧ ∃ content errno, ⟨.disk (.write handle content), .error errno⟩ ∈ since
  /-- It is told at most once that the lock is waited for. -/
  once : printings said ≤ 1
  /-- A finite timeout ends the loop before the usual number of attempts does. -/
  patient : lock.timeout.isFinite = true → lock.maxAttempts ≤ budget →
    left ≠ .done (.error outOfAttempts)

section

variable {lock : FileLock} {said : List (Exchange interface)}
  {left : Program interface (Except Failure Nat)}

/-- An acquisition that has not come to the loop. -/
theorem Acquires.of_quiet {budget : Nat} (few : said.length ≤ 2)
    (quiet : ∀ exchange ∈ said, Quiet exchange.request)
    (failed : ∀ result, left = .done result → SystemFails result) :
    lock.Acquires budget said left := by
  obtain ⟨opened, told⟩ := counts_of_quiet quiet
  have notOk {handle : Nat} : left ≠ .done (.ok handle) := by
    intro isDone
    obtain ⟨error, isError⟩ := failed _ isDone
    cases isError
  refine ⟨?_, by omega, fun handle isDone => absurd isDone notOk, fun isDone => ?_,
    fun before handle since isSaid => ?_, by omega, fun _ _ isDone => ?_⟩
  · rw [opened]
    exact fun _ _ => Nat.zero_le _
  · obtain ⟨error, isError⟩ := failed _ isDone
    cases isError
  · exact absurd (isSaid ▸ List.mem_append_right _ List.mem_cons_self)
      (not_mem_of_openings (.ok handle) opened)
  · obtain ⟨error, isError⟩ := failed _ isDone
    cases isError

/-- **Every acquisition**, whatever others do: it makes no more attempts than there is time for, so
that it ends, tells at most once that it waits, and fails for want of time only if it is too late
after an attempt that has found the file there. -/
theorem acquires_in_bounds {budget : Nat} (nonnegative : lock.timeout.lt .zero = false)
    (positive : Number.zero.lt lock.retry = true)
    (leaves : (lock.acquireWithin budget).toProgram.Leaves said left) {shows : Nat → Int}
    (ticks : Ticks lock.retry said shows) : lock.Acquires budget said left := by
  rcases acquireWithin_leaves leaves with ⟨few, quiet, failed⟩ | ⟨start, since, rfl, loops⟩
  · exact .of_quiet few quiet failed
  obtain ⟨count, rounds, spare, last, rfl, rfl, waits, stops⟩ := loop_leaves loops
  have ticks : Ticks lock.retry ([read start, lock.madeDirectory] ++ (rounds ++ last)) shows := ticks
  have isStart : shows 0 = start := ticks.reads 0 start rfl
  have started : start ≤ shows (0 + 2) := isStart ▸ ticks.forward _ _ (Nat.zero_le _)
  obtain ⟨opened, asked, told⟩ := waits.counts
  obtain ⟨openedLast, askedLast, toldLast⟩ := stops.counts
  have openings_eq : openings (read start :: lock.madeDirectory :: (rounds ++ last))
      = count + openings last := by
    rw [openings_read, openings_madeDirectory, openings_append, opened]
  have printings_eq : printings (read start :: lock.madeDirectory :: (rounds ++ last))
      = printings rounds + printings last := by
    rw [printings_read, printings_madeDirectory, printings_append]
  have atMostOnce : toTell false = 1 := rfl
  refine ⟨fun limit isLimit => ?_, ?_, fun handle isDone => ?_, fun isDone => ?_,
    fun before handle since isSaid => ?_, by omega, fun finite enough isDone => ?_⟩
  · have := waits.lt_attemptLimit? isLimit nonnegative positive ticks.right.left started
    omega
  · rw [openings_eq, List.length_cons, List.length_cons, List.length_append]
    omega
  · subst isDone
    rcases stops.ends with ⟨isResult, _⟩ | ⟨handle', processId, time, isResult, rfl⟩
      | ⟨_, isResult, _⟩ | ⟨_, isResult⟩ <;> cases isResult
    exact ⟨read start :: lock.madeDirectory :: rounds, processId, time, rfl⟩
  · subst isDone
    rcases stops.ends with ⟨isResult, _⟩ | ⟨_, _, _, isResult, _⟩ | ⟨now, isResult, rfl, isLate⟩
      | ⟨_, isResult⟩ <;> cases isResult
    refine ⟨start, read start :: lock.madeDirectory :: rounds, now, _, rfl, rfl, ?_, isLate⟩
    have later : (now - start).toNat ≠ 0 := by
      intro isZero
      rw [isZero, Number.ltNat_zero nonnegative] at isLate
      cases isLate
    omega
  · have notBefore : lock.attempted (.ok handle) ∉ read start :: lock.madeDirectory :: rounds := by
      have unmade : lock.attempted (.ok handle) ≠ lock.madeDirectory := by
        intro same
        cases same
      simp [attempted_ne_read, unmade, waits.not_mem handle]
    obtain ⟨middle, rfl, rfl⟩ := exists_append_of_not_mem notBefore isSaid
    obtain ⟨rfl, signs⟩ := stops.of_created
    refine ⟨(counts_of_quiet ((sign_asks handle).of_leaves signs).2).1, fun result isDone => ?_⟩
    subst isDone
    exact (sign_leaves signs).imp_left And.left
  · subst isDone
    have fewer := waits.lt_maxAttempts finite nonnegative positive ticks.right.left started
    rcases stops.ends with ⟨_, isZero⟩ | ⟨_, _, _, isResult, _⟩ | ⟨_, isResult, _⟩ | ⟨_, isResult⟩
    · omega
    all_goals cases isResult

end

/-- A lock that is waited for twenty milliseconds, with an attempt every ten. -/
def impatient : FileLock where
  path := ["", "srv", "u", ".lock"]
  timeout := .ofNat 20
  timeoutShown := .ofNumber (.ofNat 20)
  retry := .ofNat 10
  logger := ⟨.debug, true⟩

/-- The rounds in which others hold the lock and there is time left. -/
def inVain : List (Exchange interface) :=
  impatient.attempted (.error .exists) :: read 0
      :: [read 0, ⟨.print .output (impatient.waitLine 0 ++ "\n"), ()⟩]
    ++ impatient.paused
  :: (impatient.attempted (.error .exists) :: read 10 :: [] ++ impatient.paused
  :: (impatient.attempted (.error .exists) :: read 20 :: [] ++ impatient.paused :: []))

theorem waits_inVain : impatient.Waits 0 false 3 inVain :=
  .round (by decide +kernel) (.told (by decide) 0) <|
    .round (by decide +kernel) .before <|
      .round (by decide +kernel) .before (.nothing true)

/-- An acquisition in which others hold the lock all the time. -/
def allInVain : List (Exchange interface) :=
  read 0 :: impatient.madeDirectory
    :: (inVain ++ [impatient.attempted (.error .exists), read 30])

/-- A clock that goes on by just one pause in each. -/
def tardy (place : Nat) : Int :=
  if place ≤ 6 then 0 else if place ≤ 9 then 10 else if place ≤ 12 then 20 else 30

theorem ticks_tardy {length : Number} (ten : length.leInt 10) : Ticks length allInVain tardy where
  forward place place' earlier := by
    unfold tardy
    split <;> split <;> omega
  reads place time there := by
    have inside : place < 15 := (List.getElem?_eq_some_iff.mp there).1
    interval_cases place <;> cases there <;> rfl
  pauses place milliseconds there := by
    have isPause : place = 6 ∨ place = 9 ∨ place = 12 := by
      have inside : place < 15 := (List.getElem?_eq_some_iff.mp there).1
      interval_cases place <;> first | decide | cases there
    have isTen : tardy (place + 1) - tardy place = 10 := by
      rcases isPause with rfl | rfl | rfl <;> rfl
    rw [isTen]
    exact ten

/-- The number of attempts can be as large as the limit. -/
theorem too_late_after_all_attempts :
    impatient.timeout.lt .zero = false ∧ Number.zero.lt impatient.retry = true
      ∧ impatient.acquire.toProgram.Leaves allInVain (.done (.error impatient.tooLate))
      ∧ Ticks impatient.retry allInVain tardy
      ∧ impatient.attemptLimit? = some 4 ∧ openings allInVain = 4 ∧ printings allInVain = 1
      ∧ impatient.Acquires impatient.maxAttempts allInVain (.done (.error impatient.tooLate)) := by
  have nonnegative : impatient.timeout.lt .zero = false := by decide +kernel
  have positive : Number.zero.lt impatient.retry = true := by decide +kernel
  have leaves : impatient.acquire.toProgram.Leaves allInVain (.done (.error impatient.tooLate)) := by
    have isFour : impatient.maxAttempts = 3 + 1 := by decide +kernel
    have isLate : impatient.timeout.ltNat ((30 : Int) - 0).toNat = true := by decide +kernel
    have loops := (waits_inVain.leaves 1).append (attempts_late isLate)
    rw [← acquireWithin_maxAttempts, isFour]
    exact .next (.next loops)
  have ticks : Ticks impatient.retry allInVain tardy := ticks_tardy (by decide +kernel)
  exact ⟨nonnegative, positive, leaves, ticks, by decide +kernel, by decide +kernel,
    by decide +kernel, acquires_in_bounds nonnegative positive leaves ticks⟩

end FileLock

end DocStore
