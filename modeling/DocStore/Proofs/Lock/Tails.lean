import DocStore.Lock.Mutex
import DocStore.Lock.Tails
import DocStore.Proofs.Lookup
import Mathlib.Data.List.Induction
/-!
# Calls take turns

However the moves of calls follow one another, the tasks of one key run one at a time and in the
order in which their calls have come, and every call settles with what its own task has ended with
(`Tails.takes_turns`).  What carries this is how the calls of a key hang together (`Tails.Lined`):
each waits for the one that came before it, unless all before it have ended, and the key is in use
as long as one of them has not.

Seen from outside the calls whose tasks have not ended are a queue for each key, which is what a
mutex keeps (`Tails.Follows`).
-/

set_option autoImplicit false

namespace DocStore

variable {κ τ ε : Type}

/-- What a task has ended with. -/
def Progress.ending? : Progress ε → Option ε
  | ended ending _ _ => some ending
  | _ => none

namespace Progress

variable {progress : Progress ε}

theorem hasBegun_of_hasEnded (ended : progress.hasEnded = true) : progress.hasBegun = true := by
  cases progress with
  | ended => rfl
  | _ => cases ended

theorem hasEnded_of_hasPassed (passed : progress.hasPassed = true) : progress.hasEnded = true := by
  cases progress with
  | ended => rfl
  | _ => cases passed

theorem hasEnded_of_hasSettled (settled : progress.hasSettled = true) :
    progress.hasEnded = true := by
  cases progress with
  | ended => rfl
  | _ => cases settled

end Progress

namespace Tails

/-! ## What is known of a place -/

/-- The key of the call at a place. -/
def key? (tails : Tails κ τ ε) (place : Nat) : Option κ :=
  tails.visits[place]?.map Visit.key

/-- The place of the call for which the call at a place waits. -/
def previous? (tails : Tails κ τ ε) (place : Nat) : Option Nat :=
  tails.visits[place]?.bind Visit.previous

/-- Whether the task of the call at a place has begun. -/
def hasBegun (tails : Tails κ τ ε) (place : Nat) : Bool :=
  (tails.progress? place).any Progress.hasBegun

/-- Whether the task of the call at a place has ended. -/
def hasEnded (tails : Tails κ τ ε) (place : Nat) : Bool :=
  (tails.progress? place).any Progress.hasEnded

/-- Whether the call at a place has settled. -/
def hasSettled (tails : Tails κ τ ε) (place : Nat) : Bool :=
  (tails.progress? place).any Progress.hasSettled

/-- What the task of the call at a place has ended with. -/
def ending? (tails : Tails κ τ ε) (place : Nat) : Option ε :=
  (tails.progress? place).bind Progress.ending?

section

variable (tails : Tails κ τ ε) (place : Nat) (progress : Progress ε) (other : Nat)

@[simp] theorem length_proceed :
    (tails.proceed place progress).visits.length = tails.visits.length :=
  List.length_modify ..

@[simp] theorem key?_proceed : (tails.proceed place progress).key? other = tails.key? other := by
  rw [key?, key?, proceed, List.getElem?_modify]
  split <;> cases tails.visits[other]? <;> rfl

@[simp] theorem previous?_proceed :
    (tails.proceed place progress).previous? other = tails.previous? other := by
  rw [previous?, previous?, proceed, List.getElem?_modify]
  split <;> cases tails.visits[other]? <;> rfl

theorem progress?_proceed : (tails.proceed place progress).progress? other
    = if other = place then (tails.progress? place).map fun _ => progress
      else tails.progress? other := by
  rw [progress?, progress?, progress?, proceed, List.getElem?_modify]
  by_cases here : other = place
  · subst here
    cases tails.visits[other]? <;> simp
  · cases tails.visits[other]? <;> simp [here, Ne.symm here]

variable [DecidableEq κ]

@[simp] theorem last?_proceed (key : κ) :
    (tails.proceed place progress).last? key = tails.last? key := rfl

theorem last?_forget (key wanted : κ) :
    (tails.forget key).last? wanted = if wanted = key then none else tails.last? wanted := by
  rw [last?, forget, Lookup.lookup_filter (fun head => head != key)]
  by_cases same : wanted = key
  · rw [if_neg (by simpa using same), if_pos same]
  · rw [if_pos (by simpa using same), if_neg same, last?]

theorem visits_release : (tails.release place).visits = tails.visits := by
  unfold release
  split
  · split <;> rfl
  · rfl

@[simp] theorem key?_release : (tails.release place).key? other = tails.key? other := by
  rw [key?, visits_release, key?]

@[simp] theorem previous?_release :
    (tails.release place).previous? other = tails.previous? other := by
  rw [previous?, visits_release, previous?]

@[simp] theorem progress?_release :
    (tails.release place).progress? other = tails.progress? other := by
  rw [progress?, visits_release, progress?]

theorem last?_release (key : κ) : (tails.release place).last? key
    = if tails.key? place = some key ∧ tails.last? key = some place then none
      else tails.last? key := by
  unfold release key?
  cases tails.visits[place]? with
  | none => rw [Option.map_none, if_neg (by simp)]
  | some visit =>
      simp only [Option.map_some, Option.some.injEq]
      by_cases isLast : tails.last? visit.key = some place
      · rw [if_pos isLast, last?_forget]
        by_cases same : visit.key = key
        · rw [if_pos same.symm, if_pos ⟨same, same ▸ isLast⟩]
        · rw [if_neg (Ne.symm same), if_neg fun both => same both.1]
      · rw [if_neg isLast, if_neg]
        rintro ⟨rfl, isLast'⟩
        exact isLast isLast'

variable (key : κ) (task : τ)

theorem last?_come (wanted : κ) : (tails.come key task).last? wanted
    = if wanted = key then some tails.visits.length else tails.last? wanted := by
  rw [come, last?, List.lookup_cons]
  by_cases same : wanted = key
  · rw [if_pos same, same, beq_self_eq_true]
  · rw [if_neg same, beq_eq_false_iff_ne.mpr same]
    exact (last?_forget tails key wanted).trans (if_neg same)

theorem visits_come : (tails.come key task).visits[other]?
    = if other = tails.visits.length then some ⟨key, task, tails.last? key, .waits⟩
      else tails.visits[other]? := by
  rw [come, List.getElem?_append]
  split
  next inside => rw [if_neg (Nat.ne_of_lt inside)]
  next outside =>
    split
    next here => simp [here]
    next there =>
      rw [List.getElem?_eq_none (by simp; omega), List.getElem?_eq_none (by omega)]

omit other in
theorem length_come : (tails.come key task).visits.length = tails.visits.length + 1 := by
  simp [Tails.come]

theorem key?_come : (tails.come key task).key? other
    = if other = tails.visits.length then some key else tails.key? other := by
  rw [key?, visits_come, key?]
  split <;> rfl

theorem previous?_come : (tails.come key task).previous? other
    = if other = tails.visits.length then tails.last? key else tails.previous? other := by
  rw [previous?, visits_come, previous?]
  split <;> rfl

theorem progress?_come : (tails.come key task).progress? other
    = if other = tails.visits.length then some .waits else tails.progress? other := by
  rw [progress?, visits_come, progress?]
  split <;> rfl

end

/-! ## How the calls of a key hang together -/

variable [DecidableEq κ]

/-- Each call waits for the one that has come to its key before, unless all of these have ended; a
task has begun only when those before it have ended; and a key is in use, by the call that has come
last, as long as a task of it has not ended. -/
structure Lined (tails : Tails κ τ ε) : Prop where
  last : ∀ key place, tails.last? key = some place → tails.key? place = some key
    ∧ ∀ later, place < later → tails.key? later ≠ some key
  unused : ∀ key place, tails.last? key = none → tails.key? place = some key →
    tails.hasEnded place = true
  previous : ∀ place before key, tails.key? place = some key →
    tails.previous? place = some before → before < place ∧ tails.key? before = some key
    ∧ ∀ between, before < between → between < place → tails.key? between ≠ some key
  first : ∀ place earlier key, tails.key? place = some key → tails.previous? place = none →
    earlier < place → tails.key? earlier = some key → tails.hasEnded earlier = true
  inOrder : ∀ place earlier key, tails.key? place = some key → tails.hasBegun place = true →
    earlier < place → tails.key? earlier = some key → tails.hasEnded earlier = true

/-- No key is kept in use by a call that has settled. -/
def Open (tails : Tails κ τ ε) : Prop :=
  ∀ key place, tails.last? key = some place → tails.hasSettled place = false

section

omit [DecidableEq κ]

variable {tails : Tails κ τ ε} {test : Progress ε → Bool} {place : Nat} {old new : Progress ε}

theorem any_proceed (there : tails.progress? place = some old) (other : Nat) :
    ((tails.proceed place new).progress? other).any test
      = if other = place then test new else (tails.progress? other).any test := by
  rw [progress?_proceed, there]
  split <;> rfl

/-- What is true of what has been and of what comes is true afterwards. -/
theorem any_proceed_of_any (there : tails.progress? place = some old)
    (stays : test old = true → test new = true) {other : Nat}
    (holds : (tails.progress? other).any test = true) :
    ((tails.proceed place new).progress? other).any test = true := by
  rw [any_proceed there]
  split
  next here =>
    rw [here, there] at holds
    exact stays holds
  next => exact holds

/-- What follows for a call follows for the call at a place. -/
theorem any_of_any {test' : Progress ε → Bool}
    (follows : ∀ {progress}, test progress = true → test' progress = true)
    (holds : (tails.progress? place).any test = true) :
    (tails.progress? place).any test' = true := by
  obtain ⟨progress, isProgress, holds⟩ := (Option.any_eq_true _ _).mp holds
  exact (Option.any_eq_true _ _).mpr ⟨progress, isProgress, follows holds⟩

/-- Who has ended has begun. -/
theorem hasBegun_of_hasEnded (ended : tails.hasEnded place = true) :
    tails.hasBegun place = true :=
  any_of_any Progress.hasBegun_of_hasEnded ended

theorem hasEnded_of_hasPassed (passed : tails.hasPassed place = true) :
    tails.hasEnded place = true :=
  any_of_any Progress.hasEnded_of_hasPassed passed

theorem hasEnded_of_hasSettled (settled : tails.hasSettled place = true) :
    tails.hasEnded place = true :=
  any_of_any Progress.hasEnded_of_hasSettled settled

theorem hasTurn_iff : tails.hasTurn place = true
    ↔ ∀ before, tails.previous? place = some before → tails.hasPassed before = true := by
  show (tails.previous? place).all tails.hasPassed = true ↔ _
  cases tails.previous? place <;> simp

theorem exists_ended (ended : tails.hasEnded place = true) :
    ∃ ending passed settled, tails.progress? place = some (.ended ending passed settled) := by
  obtain ⟨progress, isProgress, ended⟩ := (Option.any_eq_true _ _).mp ended
  cases progress with
  | ended => exact ⟨_, _, _, isProgress⟩
  | _ => cases ended

theorem lt_length_of_key? {key : κ} (isKey : tails.key? place = some key) :
    place < tails.visits.length := by
  obtain ⟨visit, isVisit, _⟩ := Option.map_eq_some_iff.mp isKey
  exact (List.getElem?_eq_some_iff.mp isVisit).1

theorem key?_eq_none (outside : tails.visits.length ≤ place) : tails.key? place = none := by
  rw [key?, List.getElem?_eq_none outside, Option.map_none]

end

namespace Lined

variable {tails tails' : Tails κ τ ε} {move : Move κ τ ε}

theorem empty : Lined (Tails.empty : Tails κ τ ε) where
  last _ _ isLast := nomatch isLast
  unused _ _ _ isKey := nomatch isKey
  previous _ _ _ isKey := nomatch isKey
  first _ _ _ isKey := nomatch isKey
  inOrder _ _ _ isKey := nomatch isKey

variable (lined : Lined tails)
include lined

/-- When it is the turn of a call all before it have ended. -/
theorem ended_of_hasTurn {place earlier : Nat} {key : κ} (turn : tails.hasTurn place = true)
    (isKey : tails.key? place = some key) (before : earlier < place)
    (same : tails.key? earlier = some key) : tails.hasEnded earlier = true := by
  cases isPrevious : tails.previous? place with
  | none => exact lined.first place earlier key isKey isPrevious before same
  | some previous =>
      have passed : (tails.previous? place).all tails.hasPassed = true := turn
      rw [isPrevious] at passed
      have ended := hasEnded_of_hasPassed passed
      obtain ⟨_, isKey', between⟩ := lined.previous place previous key isKey isPrevious
      rcases Nat.lt_trichotomy earlier previous with sooner | rfl | later
      · exact lined.inOrder previous earlier key isKey' (hasBegun_of_hasEnded ended) sooner same
      · exact ended
      · exact absurd same (between earlier later before)

/-- A call goes on. -/
theorem proceed {place : Nat} {old new : Progress ε} (there : tails.progress? place = some old)
    (stays : old.hasEnded = true → new.hasEnded = true)
    (begins : new.hasBegun = true → old.hasBegun = true ∨ tails.hasTurn place = true) :
    Lined (tails.proceed place new) where
  last key other isLast := by
    simpa only [key?_proceed] using lined.last key other isLast
  unused key other isUnused isKey := by
    rw [key?_proceed] at isKey
    exact any_proceed_of_any there stays (lined.unused key other isUnused isKey)
  previous other before key isKey isPrevious := by
    rw [key?_proceed] at isKey
    rw [previous?_proceed] at isPrevious
    simpa only [key?_proceed] using lined.previous other before key isKey isPrevious
  first other earlier key isKey isFirst before same := by
    rw [key?_proceed] at isKey same
    rw [previous?_proceed] at isFirst
    exact any_proceed_of_any there stays (lined.first other earlier key isKey isFirst before same)
  inOrder other earlier key isKey begun before same := by
    rw [key?_proceed] at isKey same
    rw [hasBegun, any_proceed there] at begun
    refine any_proceed_of_any there stays ?_
    split at begun
    next here =>
      subst here
      rcases begins begun with already | turn
      · exact lined.inOrder other earlier key isKey (by rw [hasBegun, there]; exact already) before
          same
      · exact lined.ended_of_hasTurn turn isKey before same
    next => exact lined.inOrder other earlier key isKey begun before same

/-- A call whose task has ended forgets its key, unless a later one has come. -/
theorem release {place : Nat} (ended : tails.hasEnded place = true) :
    Lined (tails.release place) where
  last key other isLast := by
    rw [last?_release] at isLast
    split at isLast
    · cases isLast
    · simpa only [key?_release] using lined.last key other isLast
  unused key other isUnused isKey := by
    rw [key?_release] at isKey
    rw [hasEnded, progress?_release]
    rw [last?_release] at isUnused
    split at isUnused
    next both =>
      obtain ⟨isKey', isLast⟩ := both
      rcases Nat.lt_trichotomy other place with sooner | rfl | later
      · exact lined.inOrder place other key isKey' (hasBegun_of_hasEnded ended) sooner isKey
      · exact ended
      · exact absurd isKey ((lined.last key place isLast).2 other later)
    next => exact lined.unused key other isUnused isKey
  previous other before key isKey isPrevious := by
    rw [key?_release] at isKey
    rw [previous?_release] at isPrevious
    simpa only [key?_release] using lined.previous other before key isKey isPrevious
  first other earlier key isKey isFirst before same := by
    rw [key?_release] at isKey same
    rw [previous?_release] at isFirst
    rw [hasEnded, progress?_release]
    exact lined.first other earlier key isKey isFirst before same
  inOrder other earlier key isKey begun before same := by
    rw [key?_release] at isKey same
    rw [hasBegun, progress?_release] at begun
    rw [hasEnded, progress?_release]
    exact lined.inOrder other earlier key isKey begun before same

/-- A call comes. -/
theorem come (key : κ) (task : τ) : Lined (tails.come key task) := by
  -- Below the new call nothing has changed.
  have keyBelow {other : Nat} (inside : other < tails.visits.length) :
      (tails.come key task).key? other = tails.key? other := by
    rw [key?_come, if_neg (Nat.ne_of_lt inside)]
  have endedBelow {other : Nat} (inside : other < tails.visits.length)
      (ended : tails.hasEnded other = true) : (tails.come key task).hasEnded other = true := by
    rw [hasEnded, progress?_come, if_neg (Nat.ne_of_lt inside)]
    exact ended
  have inside {other : Nat} {wanted : κ} (notNew : other ≠ tails.visits.length)
      (isKey : (tails.come key task).key? other = some wanted) : other < tails.visits.length := by
    rw [key?_come, if_neg notNew] at isKey
    exact lt_length_of_key? isKey
  refine ⟨fun wanted place isLast => ?_, fun wanted place isUnused isKey => ?_,
    fun place before wanted isKey isPrevious => ?_,
    fun place earlier wanted isKey isFirst before same => ?_,
    fun place earlier wanted isKey begun before same => ?_⟩
  · rw [last?_come] at isLast
    split at isLast
    next isWanted =>
      cases isLast
      subst isWanted
      refine ⟨by rw [key?_come, if_pos rfl], fun later after => ?_⟩
      rw [key?_come, if_neg (Nat.ne_of_gt after), key?_eq_none (Nat.le_of_lt after)]
      exact (Option.some_ne_none wanted).symm
    next notWanted =>
      obtain ⟨isKey, alone⟩ := lined.last wanted place isLast
      refine ⟨(keyBelow (lt_length_of_key? isKey)).trans isKey, fun later after isKey' => ?_⟩
      rw [key?_come] at isKey'
      split at isKey'
      · exact notWanted (Option.some.inj isKey').symm
      · exact alone later after isKey'
  · rw [last?_come] at isUnused
    split at isUnused
    · cases isUnused
    next notWanted =>
      have notNew : place ≠ tails.visits.length := by
        rintro rfl
        rw [key?_come, if_pos rfl] at isKey
        exact notWanted (Option.some.inj isKey).symm
      have below := inside notNew isKey
      exact endedBelow below (lined.unused wanted place isUnused (keyBelow below ▸ isKey))
  · rw [previous?_come] at isPrevious
    split at isPrevious
    next isNew =>
      rw [isNew, key?_come, if_pos rfl] at isKey
      cases isKey
      obtain ⟨isKey, alone⟩ := lined.last key before isPrevious
      have below := lt_length_of_key? isKey
      refine ⟨isNew ▸ below, (keyBelow below).trans isKey, fun between after sooner => ?_⟩
      rw [keyBelow (isNew ▸ sooner)]
      exact alone between after
    next notNew =>
      have below := inside notNew isKey
      obtain ⟨sooner, isKey', between⟩ :=
        lined.previous place before wanted (keyBelow below ▸ isKey) isPrevious
      refine ⟨sooner, (keyBelow (Nat.lt_trans sooner below)).trans isKey',
        fun other after early => ?_⟩
      rw [keyBelow (Nat.lt_trans early below)]
      exact between other after early
  · rw [previous?_come] at isFirst
    split at isFirst
    next isNew =>
      rw [isNew, key?_come, if_pos rfl] at isKey
      cases isKey
      have below : earlier < tails.visits.length := isNew ▸ before
      exact endedBelow below (lined.unused key earlier isFirst (keyBelow below ▸ same))
    next notNew =>
      have below := inside notNew isKey
      have below' := Nat.lt_trans before below
      exact endedBelow below' (lined.first place earlier wanted (keyBelow below ▸ isKey) isFirst
        before (keyBelow below' ▸ same))
  · rw [hasBegun, progress?_come] at begun
    split at begun
    · cases begun
    next notNew =>
      have below := inside notNew isKey
      have below' := Nat.lt_trans before below
      exact endedBelow below' (lined.inOrder place earlier wanted (keyBelow below ▸ isKey) begun
        before (keyBelow below' ▸ same))

/-- **Every move** keeps how the calls hang together. -/
theorem step (step : Step tails move tails') : Lined tails' := by
  cases step with
  | comes key task => exact lined.come key task
  | begins waits turn => exact lined.proceed waits nofun fun _ => .inr turn
  | ends ending runs => exact lined.proceed runs (fun _ => rfl) fun _ => .inl rfl
  | passes ended => exact lined.proceed ended (fun _ => rfl) fun _ => .inl rfl
  | settles ended =>
      refine (lined.proceed ended (fun _ => rfl) fun _ => .inl rfl).release ?_
      rw [hasEnded, any_proceed ended, if_pos rfl]
      rfl

end Lined

namespace Open

variable {tails tails' : Tails κ τ ε} {move : Move κ τ ε}

theorem empty : Open (Tails.empty : Tails κ τ ε) := fun _ _ isLast => nomatch isLast

theorem proceed (isOpen : Open tails) {place : Nat} {old new : Progress ε}
    (there : tails.progress? place = some old) (same : new.hasSettled = old.hasSettled) :
    Open (tails.proceed place new) := by
  intro key other isLast
  rw [hasSettled, any_proceed there]
  have unsettled := isOpen key other isLast
  split
  next here =>
    rw [here, hasSettled, there] at unsettled
    exact same.trans unsettled
  next => exact unsettled

/-- **Every move** leaves keys in use by calls that have yet to settle. -/
theorem step (isOpen : Open tails) (lined : Lined tails) (step : Step tails move tails') :
    Open tails' := by
  cases step with
  | comes key task =>
      intro wanted place isLast
      rw [last?_come] at isLast
      rw [hasSettled, progress?_come]
      split
      · rfl
      next notNew =>
        split at isLast
        · cases isLast
          exact absurd rfl notNew
        · exact isOpen wanted place isLast
  | begins waits turn => exact isOpen.proceed waits rfl
  | ends ending runs => exact isOpen.proceed runs rfl
  | passes ended => exact isOpen.proceed ended rfl
  | @settles place ending passed ended =>
      intro key other isLast
      rw [last?_release] at isLast
      split at isLast
      next => cases isLast
      next notLast =>
        have isLast' : tails.last? key = some other := isLast
        have differs : other ≠ place := by
          rintro rfl
          exact notLast ⟨(key?_proceed ..).trans (lined.last key other isLast').1, isLast'⟩
        rw [hasSettled, progress?_release, any_proceed ended, if_neg differs]
        exact isOpen key other isLast'

end Open

/-! ## What the moves have been -/

/-- The place of the call whose task begins. -/
def Move.begins? : Move κ τ ε → Option Nat
  | begins place => some place
  | _ => none

/-- The place of the call that goes on by a move. -/
def Move.place? : Move κ τ ε → Option Nat
  | comes _ _ => none
  | begins place | ends place _ | passes place | settles place => some place

omit [DecidableEq κ] in
theorem Move.place?_of_begins? {move : Move κ τ ε} {place : Nat}
    (begins : move.begins? = some place) : move.place? = some place := by
  cases move with
  | begins place => exact begins
  | _ => cases begins

/-- The places of the calls of a key, in the order in which they have come. -/
def placesOf (tails : Tails κ τ ε) (key : κ) : List Nat :=
  (List.range tails.visits.length).filter fun place => tails.key? place = some key

/-- The places of the calls of a key whose tasks have begun, in the order in which they have. -/
def begunOf (tails : Tails κ τ ε) (moves : List (Move κ τ ε)) (key : κ) : List Nat :=
  (moves.filterMap Move.begins?).filter fun place => tails.key? place = some key

omit [DecidableEq κ] in
/-- A number that is wanted after all smaller ones comes at the end. -/
theorem filter_range_add {wanted wanted' : Nat → Bool} {count place : Nat} (inside : place < count)
    (new : wanted place = false) (last : ∀ other, place < other → wanted other = false)
    (adds : ∀ other, wanted' other = (decide (other = place) || wanted other)) :
    (List.range count).filter wanted' = (List.range count).filter wanted ++ [place] := by
  induction count with
  | zero => exact absurd inside (Nat.not_lt_zero place)
  | succ count ih =>
      rw [List.range_succ, List.filter_append, List.filter_append]
      rcases Nat.lt_succ_iff_lt_or_eq.mp inside with sooner | rfl
      · have isLast := last count sooner
        have isLast' : wanted' count = false := by
          rw [adds, isLast]
          simp [Nat.ne_of_gt sooner]
        simp [ih sooner, isLast, isLast']
      · have isNew : wanted' place = true := by simp [adds]
        have same : (List.range place).filter wanted' = (List.range place).filter wanted := by
          refine List.filter_congr fun other member => ?_
          simp [adds, Nat.ne_of_lt (List.mem_range.mp member)]
        simp [same, new, isNew]

/-- The moves tell which tasks have begun, in which order, and what they have ended with. -/
structure Told (moves : List (Move κ τ ε)) (tails : Tails κ τ ε) : Prop where
  inside : ∀ place ∈ moves.filterMap Move.begins?, place < tails.visits.length
  begun : ∀ key, tails.begunOf moves key = (tails.placesOf key).filter tails.hasBegun
  endings : ∀ place ending, .ends place ending ∈ moves ↔ tails.ending? place = some ending
  count : moves.length + tails.left = 5 * tails.visits.length

namespace Told

variable {moves : List (Move κ τ ε)} {tails : Tails κ τ ε}

theorem empty : Told [] (Tails.empty : Tails κ τ ε) where
  inside _ member := nomatch member
  begun _ := rfl
  endings _ _ := by simp [ending?, progress?, Tails.empty]
  count := rfl

theorem begunOf_concat {move : Move κ τ ε} (idle : move.begins? = none) (key : κ) :
    tails.begunOf (moves ++ [move]) key = tails.begunOf moves key := by
  rw [begunOf, List.filterMap_append, List.filterMap_cons_none idle, List.filterMap_nil,
    List.append_nil, begunOf]

omit [DecidableEq κ] in
theorem ending?_proceed {place : Nat} {old : Progress ε} (there : tails.progress? place = some old)
    (new : Progress ε) (other : Nat) : (tails.proceed place new).ending? other
      = if other = place then new.ending? else tails.ending? other := by
  rw [ending?, progress?_proceed, there, ending?]
  split <;> rfl

variable (told : Told moves tails)
include told

/-- A call comes: nothing begins and nothing ends. -/
theorem begunOf_come (key : κ) (task : τ) (wanted : κ) :
    (tails.come key task).begunOf moves wanted
      = ((tails.come key task).placesOf wanted).filter (tails.come key task).hasBegun := by
  have isNew : (tails.come key task).hasBegun tails.visits.length = false := by
    rw [hasBegun, progress?_come, if_pos rfl]
    rfl
  have keys {other : Nat} (below : other < tails.visits.length) :
      (tails.come key task).key? other = tails.key? other := by
    rw [key?_come, if_neg (Nat.ne_of_lt below)]
  have same : (tails.come key task).begunOf moves wanted = tails.begunOf moves wanted :=
    List.filter_congr fun other member => by rw [keys (told.inside other member)]
  rw [same, told.begun, placesOf, placesOf, length_come, List.range_succ, List.filter_append,
    List.filter_append, List.filter_filter, List.filter_filter]
  have none : ([tails.visits.length].filter fun place =>
      decide ((tails.come key task).key? place = some wanted)).filter
        (tails.come key task).hasBegun = [] := by
    simp [List.filter_filter, isNew]
  rw [none, List.append_nil]
  refine List.filter_congr fun other member => ?_
  have below := List.mem_range.mp member
  rw [keys below, hasBegun, hasBegun, progress?_come, if_neg (Nat.ne_of_lt below)]

/-- A task begins behind those of its key that have begun. -/
theorem begunOf_begins (lined : Lined tails) {place : Nat}
    (waits : tails.progress? place = some .waits) (wanted : κ) :
    (tails.proceed place .runs).begunOf (moves ++ [.begins place]) wanted
      = ((tails.proceed place .runs).placesOf wanted).filter (tails.proceed place .runs).hasBegun := by
  have begun := told.begun wanted
  have begins (other : Nat) : (tails.proceed place .runs).hasBegun other
      = (decide (other = place) || tails.hasBegun other) := by
    rw [hasBegun, any_proceed waits, hasBegun]
    by_cases here : other = place <;> simp [here, Progress.hasBegun]
  have notYet : tails.hasBegun place = false := by
    rw [hasBegun, waits]
    rfl
  have notEnded : tails.hasEnded place = false := by
    rw [hasEnded, waits]
    rfl
  simp only [begunOf, placesOf, key?_proceed, length_proceed, List.filterMap_append,
    List.filterMap_cons, List.filterMap_nil, Move.begins?, List.filter_append,
    List.filter_filter] at begun ⊢
  rw [begun]
  by_cases isKey : tails.key? place = some wanted
  · rw [List.filter_cons_of_pos (by simpa using isKey), List.filter_nil]
    refine (filter_range_add (lt_length_of_key? isKey) (by simp [notYet]) (fun other later => ?_)
      fun other => ?_).symm
    · by_contra isBegun
      obtain ⟨hasBegun, isOther⟩ := Bool.and_eq_true_iff.mp (Bool.not_eq_false _ ▸ isBegun)
      have ended := lined.inOrder other place wanted (of_decide_eq_true isOther) hasBegun
        later isKey
      rw [notEnded] at ended
      cases ended
    · by_cases here : other = place <;> simp [begins, here, isKey]
  · rw [List.filter_cons_of_neg (by simpa using isKey), List.filter_nil, List.append_nil]
    refine List.filter_congr fun other _ => ?_
    by_cases here : other = place <;> simp [begins, here, isKey]

/-- Nothing begins. -/
theorem begunOf_proceed {place : Nat} {old : Progress ε} (there : tails.progress? place = some old)
    (new : Progress ε) (same : new.hasBegun = old.hasBegun) (wanted : κ) :
    (tails.proceed place new).begunOf moves wanted
      = ((tails.proceed place new).placesOf wanted).filter (tails.proceed place new).hasBegun := by
  have sameBegun : (tails.proceed place new).hasBegun = tails.hasBegun := by
    funext other
    rw [hasBegun, any_proceed there, hasBegun]
    split
    next here => rw [here, there, same]; rfl
    next => rfl
  have begun := told.begun wanted
  simp only [begunOf, placesOf, key?_proceed, length_proceed, sameBegun] at begun ⊢
  exact begun

/-- A call goes on by a move; what is new is whether a task begins or ends. -/
theorem goesOn {place : Nat} {old new : Progress ε} (there : tails.progress? place = some old)
    {move : Move κ τ ε} (isPlace : move.place? = some place) (fewer : new.left + 1 = old.left)
    (begun : ∀ key, (tails.proceed place new).begunOf (moves ++ [move]) key
      = ((tails.proceed place new).placesOf key).filter (tails.proceed place new).hasBegun)
    (ends : ∀ ending, .ends place ending = move ∨ old.ending? = some ending
      ↔ new.ending? = some ending) :
    Told (moves ++ [move]) (tails.proceed place new) := by
  have below : place < tails.visits.length := by
    obtain ⟨visit, isVisit, _⟩ := Option.map_eq_some_iff.mp there
    exact (List.getElem?_eq_some_iff.mp isVisit).1
  refine ⟨fun other member => ?_, begun, fun other ending => ?_, ?_⟩
  · rw [length_proceed]
    rw [List.filterMap_append, List.mem_append] at member
    rcases member with before | now
    · exact told.inside other before
    · obtain ⟨move', isMove, begins⟩ := List.mem_filterMap.mp now
      rw [List.mem_singleton.mp isMove] at begins
      rw [Move.place?_of_begins? begins, Option.some.injEq] at isPlace
      exact isPlace ▸ below
  · rw [List.mem_append, List.mem_singleton, told.endings, ending?_proceed there]
    split
    next here =>
      rw [here, ending?, there, or_comm]
      exact ends ending
    next elsewhere =>
      refine or_iff_left ?_
      rintro rfl
      exact elsewhere (Option.some.inj isPlace)
  · have sum := left_proceed there new
    have count := told.count
    rw [List.length_append, List.length_singleton, length_proceed]
    omega

theorem come (key : κ) (task : τ) : Told (moves ++ [.comes key task]) (tails.come key task) := by
  refine ⟨fun other member => ?_, fun wanted => ?_, fun other ending => ?_, ?_⟩
  · rw [length_come]
    rw [List.filterMap_append, List.filterMap_cons_none rfl, List.filterMap_nil,
      List.append_nil] at member
    exact Nat.lt_succ_of_lt (told.inside other member)
  · rw [begunOf_concat rfl]
    exact told.begunOf_come key task wanted
  · rw [List.mem_append, List.mem_singleton, told.endings, ending?, ending?, progress?_come,
      or_iff_left (by simp)]
    split
    next here =>
      have none : tails.progress? other = none := by
        rw [progress?, here, List.getElem?_eq_none (Nat.le_refl _), Option.map_none]
      simp [none, Progress.ending?]
    next => rfl
  · have count := told.count
    rw [List.length_append, List.length_singleton, left_come, length_come]
    omega

/-- To forget a key tells nothing. -/
theorem release (place : Nat) : Told moves (tails.release place) where
  inside := visits_release tails place ▸ told.inside
  begun key := by
    have begun := told.begun key
    have same : (tails.release place).hasBegun = tails.hasBegun := by
      funext other
      rw [hasBegun, progress?_release, hasBegun]
    simpa only [begunOf, placesOf, key?_release, visits_release, same] using begun
  endings other ending := by
    rw [told.endings, ending?, ending?, progress?_release]
  count := by
    rw [left_release, visits_release]
    exact told.count

/-- **Every move** is told. -/
theorem step (lined : Lined tails) {move : Move κ τ ε} {tails' : Tails κ τ ε}
    (step : Step tails move tails') : Told (moves ++ [move]) tails' := by
  cases step with
  | comes key task => exact told.come key task
  | begins waits turn =>
      exact told.goesOn waits rfl rfl (told.begunOf_begins lined waits) fun _ => by
        simp [Progress.ending?]
  | @ends place ending runs =>
      refine told.goesOn runs rfl rfl (fun key => ?_) fun ending' => by
        simp [Progress.ending?, eq_comm]
      rw [begunOf_concat rfl]
      exact told.begunOf_proceed runs (.ended ending false false) rfl key
  | @passes place ending settled ended =>
      refine told.goesOn ended rfl ?_ (fun key => ?_) fun ending' => by simp [Progress.ending?]
      · simp [Progress.left, Nat.add_comm]
      · rw [begunOf_concat rfl]
        exact told.begunOf_proceed ended (.ended ending true settled) rfl key
  | @settles place ending passed ended =>
      refine (told.goesOn ended rfl ?_ (fun key => ?_) fun ending' => by
        simp [Progress.ending?]).release place
      · simp [Progress.left]
      · rw [begunOf_concat rfl]
        exact told.begunOf_proceed ended (.ended ending passed true) rfl key

end Told

/-! ## Whatever the order of the moves -/

theorem after_concat (tails : Tails κ τ ε) (moves : List (Move κ τ ε)) (move : Move κ τ ε) :
    tails.after (moves ++ [move]) = (tails.after moves).bind fun tails' => tails'.move move := by
  simp [after, List.foldlM_append, Option.bind_eq_bind]

section

variable {moves : List (Move κ τ ε)} {tails : Tails κ τ ε}

/-- **Whatever the moves have been** the calls hang together, and the moves have told it. -/
theorem lined_of_after (run : Tails.empty.after moves = some tails) :
    Lined tails ∧ Open tails ∧ Told moves tails := by
  induction moves using List.reverseRecOn generalizing tails with
  | nil =>
      cases run
      exact ⟨.empty, .empty, .empty⟩
  | append_singleton moves move ih =>
      rw [after_concat] at run
      obtain ⟨before, ran, moved⟩ := Option.bind_eq_some_iff.mp run
      obtain ⟨lined, isOpen, told⟩ := ih ran
      have step := move_eq_some_iff.mp moved
      exact ⟨lined.step step, isOpen.step lined step, told.step lined step⟩

/-- A call can begin as soon as all before it have ended, when at most the one before it has passed
on its turn; what becomes of other keys does not matter. -/
theorem Lined.begins (lined : Lined tails) {place : Nat} {key : κ}
    (isKey : tails.key? place = some key) (waits : tails.progress? place = some .waits)
    (ended : ∀ earlier < place, tails.key? earlier = some key → tails.hasEnded earlier = true) :
    (tails.move (.begins place)).isSome ∨ ∃ before passed, tails.key? before = some key
      ∧ tails.move (.passes before) = some passed ∧ (passed.move (.begins place)).isSome := by
  by_cases turn : tails.hasTurn place = true
  · exact .inl (Option.isSome_of_eq_some (move_eq_some_iff.mpr (.begins waits turn)))
  · rw [hasTurn_iff, not_forall] at turn
    obtain ⟨before, waiting⟩ := turn
    obtain ⟨isPrevious, notPassed⟩ := Classical.not_imp.mp waiting
    obtain ⟨sooner, isKey', _⟩ := lined.previous place before key isKey isPrevious
    obtain ⟨ending, passed, settled, isEnded⟩ := exists_ended (ended before sooner isKey')
    have notYet : passed = false := by
      simpa [hasPassed, isEnded, Progress.hasPassed] using notPassed
    subst notYet
    refine .inr ⟨before, _, isKey', move_eq_some_iff.mpr (.passes isEnded), ?_⟩
    refine Option.isSome_of_eq_some (move_eq_some_iff.mpr (.begins ?_ ?_))
    · rw [progress?_proceed, if_neg (Nat.ne_of_gt sooner), waits]
    · rw [hasTurn_iff]
      intro before' isPrevious'
      rw [previous?_proceed, isPrevious] at isPrevious'
      cases isPrevious'
      rw [hasPassed, any_proceed isEnded, if_pos rfl]
      rfl

/-- When nothing runs and no move can be made but the coming of a call, all calls have settled. -/
theorem Lined.settled (lined : Lined tails)
    (still : ∀ place, tails.move (.begins place) = none ∧ tails.move (.passes place) = none
      ∧ tails.move (.settles place) = none)
    (idle : ∀ place, tails.progress? place ≠ some .runs) (place : Nat)
    (inside : place < tails.visits.length) : tails.hasSettled place = true := by
  induction place using Nat.strongRecOn with
  | ind place ih =>
      obtain ⟨noBegin, _, noSettle⟩ := still place
      have isVisit := List.getElem?_eq_getElem inside
      have isKey : tails.key? place = some (tails.visits[place]).key := by rw [key?, isVisit]; rfl
      cases progress : tails.progress? place with
      | none =>
          rw [progress?, isVisit] at progress
          cases progress
      | some progress' =>
          cases progress' with
          | runs => exact absurd progress (idle place)
          | ended ending passed settled =>
              cases settled with
              | true => rw [hasSettled, progress]; rfl
              | false =>
                  rw [move_eq_some_iff.mpr (.settles progress)] at noSettle
                  cases noSettle
          | waits =>
              have turn : tails.hasTurn place = true := by
                rw [hasTurn_iff]
                intro before isPrevious
                obtain ⟨sooner, _, _⟩ := lined.previous place before _ isKey isPrevious
                have settled := ih before sooner (Nat.lt_trans sooner inside)
                obtain ⟨ending, passed, _, isEnded⟩ := exists_ended (hasEnded_of_hasSettled settled)
                cases passed with
                | true => rw [hasPassed, isEnded]; rfl
                | false =>
                    have noPass := (still before).2.1
                    rw [move_eq_some_iff.mpr (.passes isEnded)] at noPass
                    cases noPass
              rw [move_eq_some_iff.mpr (.begins progress turn)] at noBegin
              cases noBegin

end

/-- What is true of calls after some moves: the tasks of a key begin in the order in which their
calls have come, each once, and never before those that have come before have ended; a call settles
with what its own task has ended with, and waits for no call of another key.  A key is in use while
a task of it has not ended, and no longer when all of its calls have settled.  After so many moves
at most nothing is left to happen but that tasks end. -/
structure TakesTurns (moves : List (Move κ τ ε)) (tails : Tails κ τ ε) : Prop where
  inOrder : ∀ key, tails.begunOf moves key = (tails.placesOf key).filter tails.hasBegun
  apart : ∀ earlier later key, tails.key? earlier = some key → tails.key? later = some key →
    earlier < later → tails.hasBegun later = true → tails.hasEnded earlier = true
  ownEnding : ∀ place, tails.hasSettled place = true → ∃ ending, tails.ending? place = some ending
    ∧ ∀ ending', .ends place ending' ∈ moves ↔ ending' = ending
  undelayed : ∀ place key, tails.key? place = some key → tails.progress? place = some .waits →
    (∀ earlier < place, tails.key? earlier = some key → tails.hasEnded earlier = true) →
      (tails.move (.begins place)).isSome ∨ ∃ before passed, tails.key? before = some key
        ∧ tails.move (.passes before) = some passed ∧ (passed.move (.begins place)).isSome
  locked : ∀ place key, tails.key? place = some key → tails.hasEnded place = false →
    tails.isLocked key = true
  unlocked : ∀ key, (∀ place, tails.key? place = some key → tails.hasSettled place = true) →
    tails.isLocked key = false
  forgotten : (∀ place < tails.visits.length, tails.hasSettled place = true) → tails.last = []
  goesOn : (∀ place, tails.move (.begins place) = none ∧ tails.move (.passes place) = none
      ∧ tails.move (.settles place) = none) → (∀ place, tails.progress? place ≠ some .runs) →
    (∀ place < tails.visits.length, tails.hasSettled place = true)
      ∧ ∀ key, tails.begunOf moves key = tails.placesOf key
  few : moves.length ≤ 5 * tails.visits.length

section

variable {moves : List (Move κ τ ε)} {tails : Tails κ τ ε}

/-- **Calls take turns**, whatever the order of what happens to them. -/
theorem takes_turns (run : Tails.empty.after moves = some tails) : TakesTurns moves tails := by
  obtain ⟨lined, isOpen, told⟩ := lined_of_after run
  have unlocked (key : κ)
      (settled : ∀ place, tails.key? place = some key → tails.hasSettled place = true) :
      tails.last? key = none := by
    cases isLast : tails.last? key with
    | none => rfl
    | some place =>
        have unsettled := isOpen key place isLast
        rw [settled place (lined.last key place isLast).1] at unsettled
        cases unsettled
  refine ⟨told.begun, fun earlier later key isKey isKey' before begun => ?_,
    fun place settled => ?_, fun place key isKey waits ended => lined.begins isKey waits ended,
    fun place key isKey going => ?_, fun key settled => ?_, fun settled => ?_, fun still idle => ?_, ?_⟩
  · exact lined.inOrder later earlier key isKey' begun before isKey
  · obtain ⟨ending, passed, settled, isEnded⟩ := exists_ended (hasEnded_of_hasSettled settled)
    have isEnding : tails.ending? place = some ending := by rw [ending?, isEnded]; rfl
    refine ⟨ending, isEnding, fun ending' => ?_⟩
    rw [told.endings, isEnding, Option.some.injEq, eq_comm]
  · cases isLast : tails.last? key with
    | some last => rw [isLocked, isLast]; rfl
    | none =>
        rw [lined.unused key place isLast isKey] at going
        cases going
  · rw [isLocked, unlocked key settled]
    rfl
  · have none (key : κ) : tails.last? key = none :=
      unlocked key fun place isKey => settled place (lt_length_of_key? isKey)
    cases entries : tails.last with
    | nil => rfl
    | cons entry rest =>
        have found := none entry.1
        rw [last?, entries, List.lookup_cons, beq_self_eq_true] at found
        cases found
  · have settled := lined.settled still idle
    refine ⟨settled, fun key => (told.begun key).trans ?_⟩
    refine List.filter_eq_self.mpr fun place member => ?_
    have isKey := of_decide_eq_true (List.mem_filter.mp member).2
    exact hasBegun_of_hasEnded
      (hasEnded_of_hasSettled (settled place (lt_length_of_key? isKey)))
  · have count := told.count
    omega

end

/-- Three calls come to one key and one to another.  The second comes while the task of the first
runs, and the third after this has failed. -/
def crossing : List (Move String String (Except String Nat)) :=
  [.comes "a" "first", .comes "b" "aside", .begins 0, .comes "a" "second", .begins 1,
    .ends 0 (.error "boom"), .comes "a" "third", .settles 0, .passes 0, .begins 2, .ends 2 (.ok 5),
    .passes 2, .settles 2, .begins 3, .ends 3 (.ok 7), .settles 3, .passes 3, .ends 1 (.ok 1),
    .passes 1, .settles 1]

theorem crossing_takes_turns : ∃ tails, Tails.empty.after crossing = some tails
    ∧ TakesTurns crossing tails ∧ tails.begunOf crossing "a" = [0, 2, 3] ∧ tails.last = [] :=
  ⟨_, rfl, takes_turns rfl, by decide, by decide⟩

/-! ## The mutex that this comes to -/

/-- The places of the calls of a key whose tasks have not ended. -/
def lineOf (tails : Tails κ τ ε) (key : κ) : List Nat :=
  (tails.placesOf key).filter fun place => !tails.hasEnded place

/-- A mutex keeps the calls whose tasks have not ended. -/
def Follows (mutex : Mutex κ Nat) (tails : Tails κ τ ε) : Prop :=
  ∀ key, mutex.queue key = tails.lineOf key

section

variable {tails tails' : Tails κ τ ε} {move : Move κ τ ε} {mutex : Mutex κ Nat}

omit [DecidableEq κ] in
/-- What is wanted no more, while nothing smaller is, stands at the head of what is. -/
theorem filter_range_remove {wanted wanted' : Nat → Bool} {count place : Nat}
    (inside : place < count) (isWanted : wanted place = true)
    (first : ∀ other < place, wanted other = false)
    (removes : ∀ other, wanted' other = (wanted other && decide (other ≠ place))) :
    (List.range count).filter wanted = place :: (List.range count).filter wanted' := by
  induction count with
  | zero => exact absurd inside (Nat.not_lt_zero place)
  | succ count ih =>
      rw [List.range_succ, List.filter_append, List.filter_append]
      rcases Nat.lt_succ_iff_lt_or_eq.mp inside with sooner | rfl
      · have same : wanted' count = wanted count := by simp [removes, Nat.ne_of_gt sooner]
        rw [ih sooner, List.cons_append]
        congr 2
        exact List.filter_congr fun other member => by rw [List.mem_singleton.mp member, same]
      · have none : (List.range place).filter wanted = [] :=
          List.filter_eq_nil_iff.mpr fun other member => by
            simp [first other (List.mem_range.mp member)]
        have none' : (List.range place).filter wanted' = [] :=
          List.filter_eq_nil_iff.mpr fun other member => by
            simp [removes, first other (List.mem_range.mp member)]
        have gone : wanted' place = false := by simp [removes]
        simp [none, none', isWanted, gone]

theorem lineOf_eq (tails : Tails κ τ ε) (key : κ) : tails.lineOf key
    = (List.range tails.visits.length).filter fun place =>
      !tails.hasEnded place && decide (tails.key? place = some key) :=
  List.filter_filter ..

theorem lineOf_come (tails : Tails κ τ ε) (key : κ) (task : τ) (wanted : κ) :
    (tails.come key task).lineOf wanted
      = if wanted = key then tails.lineOf key ++ [tails.visits.length]
        else tails.lineOf wanted := by
  have below : (List.range tails.visits.length).filter (fun place =>
        !(tails.come key task).hasEnded place
          && decide ((tails.come key task).key? place = some wanted))
      = tails.lineOf wanted := by
    rw [lineOf_eq]
    refine List.filter_congr fun other member => ?_
    have notNew := Nat.ne_of_lt (List.mem_range.mp member)
    rw [hasEnded, hasEnded, progress?_come, key?_come, if_neg notNew, if_neg notNew]
  have notEnded : (tails.come key task).hasEnded tails.visits.length = false := by
    rw [hasEnded, progress?_come, if_pos rfl]
    rfl
  rw [lineOf_eq, length_come, List.range_succ, List.filter_append, below]
  by_cases same : wanted = key
  · simp [same, notEnded, key?_come]
  · simp [same, notEnded, key?_come, Ne.symm same]

/-- Whoever goes on without coming to the end of the task stays where it is. -/
theorem lineOf_proceed {place : Nat} {old : Progress ε} (there : tails.progress? place = some old)
    (new : Progress ε) (same : new.hasEnded = old.hasEnded) (key : κ) :
    (tails.proceed place new).lineOf key = tails.lineOf key := by
  have sameEnded : (tails.proceed place new).hasEnded = tails.hasEnded := by
    funext other
    rw [hasEnded, any_proceed there, hasEnded]
    split
    next here => rw [here, there, same]; rfl
    next => rfl
  simp only [lineOf_eq, length_proceed, key?_proceed, sameEnded]

/-- The task that ends is that of the first in the line. -/
theorem lineOf_ends (lined : Lined tails) {place : Nat} {key : κ}
    (runs : tails.progress? place = some .runs) (isKey : tails.key? place = some key) (ending : ε) :
    tails.lineOf key
        = place :: (tails.proceed place (.ended ending false false)).lineOf key
      ∧ ∀ wanted, wanted ≠ key →
        (tails.proceed place (.ended ending false false)).lineOf wanted = tails.lineOf wanted := by
  have ended (other : Nat) : (tails.proceed place (.ended ending false false)).hasEnded other
      = (tails.hasEnded other || decide (other = place)) := by
    rw [hasEnded, any_proceed runs, hasEnded]
    by_cases here : other = place <;> simp [here, Progress.hasEnded]
  have notEnded : tails.hasEnded place = false := by
    rw [hasEnded, runs]
    rfl
  have begun : tails.hasBegun place = true := by
    rw [hasBegun, runs]
    rfl
  simp only [lineOf_eq, length_proceed, key?_proceed]
  refine ⟨filter_range_remove (lt_length_of_key? isKey) (by simp [notEnded, isKey])
    (fun other before => ?_) fun other => ?_, fun wanted differs => ?_⟩
  · by_cases isOther : tails.key? other = some key
    · rw [lined.inOrder place other key isKey begun before isOther]
      rfl
    · rw [decide_eq_false isOther, Bool.and_false]
  · by_cases here : other = place <;> simp [ended, here]
  · refine List.filter_congr fun other _ => ?_
    by_cases here : other = place
    · simp [here, isKey, Ne.symm differs]
    · simp [ended, here]

/-- **The calls do what a mutex does**: who comes is put behind the others of the key, the task that
ends is that of the first, and nothing else makes a difference. -/
theorem Follows.step (follows : Follows mutex tails) (lined : Lined tails)
    (step : Step tails move tails') :
    match move with
    | .comes key _ => Follows (mutex.enter key tails.visits.length) tails'
    | .ends place _ => ∃ key, tails.key? place = some key ∧ mutex.holder? key = some place
        ∧ Follows (mutex.leave key) tails'
    | _ => Follows mutex tails' := by
  cases step with
  | comes key task =>
      intro wanted
      rw [Mutex.queue_enter, lineOf_come, follows, follows]
  | begins waits turn =>
      exact fun key => (follows key).trans (lineOf_proceed waits .runs rfl key).symm
  | @ends place ending runs =>
      obtain ⟨visit, isVisit, _⟩ := Option.map_eq_some_iff.mp runs
      have isKey : tails.key? place = some visit.key := by rw [key?, isVisit]; rfl
      obtain ⟨first, others⟩ := lineOf_ends lined runs isKey ending
      refine ⟨visit.key, isKey, ?_, fun wanted => ?_⟩
      · rw [Mutex.holder?, follows, first, List.head?_cons]
      · rw [Mutex.queue_leave]
        split
        next same => rw [same, follows, first, List.tail_cons]
        next differs => rw [follows, others wanted differs]
  | passes ended =>
      exact fun key => (follows key).trans (lineOf_proceed ended _ (by rfl) key).symm
  | @settles place ending passed ended =>
      intro key
      have same : ((tails.proceed place (.ended ending passed true)).release place).lineOf key
          = (tails.proceed place (.ended ending passed true)).lineOf key := by
        simp only [lineOf_eq, visits_release, key?_release, hasEnded, progress?_release]
      rw [follows, same, lineOf_proceed ended _ (by rfl)]

end

end Tails

end DocStore
