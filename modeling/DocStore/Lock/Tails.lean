/-!
# Calls that wait for one another

Calls come to keys, each with a task that is to run alone at its key.  A call keeps its place among
all calls; for every key in use `Tails` keeps the place of the call that has come last, and a call
waits for the one that it finds there.  When that one has passed on its turn, or there is none, the
task begins.  Whatever a task ends with, its call passes on the turn, and settles with what the task
has ended with; a call that settles while it is still the last one at its key forgets the key.

Nothing says when a call passes on its turn and when it settles, once its task has ended, nor which
of the two comes first: each of them is a move of its own, as are the coming of a call and the
beginning and the end of its task (`Tails.move`).
-/

set_option autoImplicit false

namespace DocStore

/-- How far a call has come; a task ends with an ending. -/
inductive Progress (ε : Type) where
  /-- The task has not begun. -/
  | waits
  /-- The task runs. -/
  | runs
  /-- The task has ended; the call has passed on its turn, and settled, or has yet to. -/
  | ended (ending : ε) (passed settled : Bool)
deriving DecidableEq

namespace Progress

variable {ε : Type}

/-- Whether the task has begun. -/
def hasBegun : Progress ε → Bool
  | waits => false
  | _ => true

/-- Whether the task has ended. -/
def hasEnded : Progress ε → Bool
  | ended _ _ _ => true
  | _ => false

/-- Whether the turn has been passed on. -/
def hasPassed : Progress ε → Bool
  | ended _ passed _ => passed
  | _ => false

/-- Whether the call has settled. -/
def hasSettled : Progress ε → Bool
  | ended _ _ settled => settled
  | _ => false

/-- How many moves are left. -/
def left : Progress ε → Nat
  | waits => 4
  | runs => 3
  | ended _ passed settled => (!passed).toNat + (!settled).toNat

end Progress

/-- A call that has come to a key. -/
structure Visit (κ τ ε : Type) where
  key : κ
  task : τ
  /-- The place of the call that it waits for. -/
  previous : Option Nat
  progress : Progress ε
deriving DecidableEq

/-- The calls that have come, and for every key in use the place of the last one. -/
structure Tails (κ τ ε : Type) where
  visits : List (Visit κ τ ε)
  last : List (κ × Nat)
deriving DecidableEq

/-- What can happen to calls. -/
inductive Tails.Move (κ τ ε : Type) where
  /-- A call comes to a key. -/
  | comes (key : κ) (task : τ)
  /-- The task of the call at a place begins. -/
  | begins (place : Nat)
  /-- The task ends. -/
  | ends (place : Nat) (ending : ε)
  /-- The call passes on its turn. -/
  | passes (place : Nat)
  /-- The call settles. -/
  | settles (place : Nat)

namespace Tails

variable {κ τ ε : Type}

/-- No calls. -/
def empty : Tails κ τ ε := ⟨[], []⟩

/-- How far the call at a place has come. -/
def progress? (tails : Tails κ τ ε) (place : Nat) : Option (Progress ε) :=
  tails.visits[place]?.map Visit.progress

/-- Whether the call at a place has passed on its turn. -/
def hasPassed (tails : Tails κ τ ε) (place : Nat) : Bool :=
  (tails.progress? place).any Progress.hasPassed

/-- Whether it is the turn of the call at a place. -/
def hasTurn (tails : Tails κ τ ε) (place : Nat) : Bool :=
  (tails.visits[place]?.bind Visit.previous).all tails.hasPassed

/-- How many moves are left to the calls that have come. -/
def left (tails : Tails κ τ ε) : Nat :=
  tails.visits.foldr (fun visit others => visit.progress.left + others) 0

/-- The call at a place has come so far. -/
def proceed (tails : Tails κ τ ε) (place : Nat) (progress : Progress ε) : Tails κ τ ε :=
  { tails with visits := tails.visits.modify place fun visit => { visit with progress } }

variable [DecidableEq κ]

/-- The place of the call that has come last to a key, while the key is in use. -/
def last? (tails : Tails κ τ ε) (key : κ) : Option Nat :=
  tails.last.lookup key

/-- Whether a key is in use. -/
def isLocked (tails : Tails κ τ ε) (key : κ) : Bool :=
  (tails.last? key).isSome

/-- Forget a key. -/
def forget (tails : Tails κ τ ε) (key : κ) : Tails κ τ ε :=
  { tails with last := tails.last.filter fun entry => entry.1 != key }

/-- Forget the key of the call at a place, unless a later one has come to it. -/
def release (tails : Tails κ τ ε) (place : Nat) : Tails κ τ ε :=
  match tails.visits[place]? with
  | some visit => if tails.last? visit.key = some place then tails.forget visit.key else tails
  | none => tails

/-- Let a call come to a key. -/
def come (tails : Tails κ τ ε) (key : κ) (task : τ) : Tails κ τ ε where
  visits := tails.visits ++ [⟨key, task, tails.last? key, .waits⟩]
  last := (key, tails.visits.length) :: (tails.forget key).last

/-- What becomes of calls by a move; nothing where it cannot be made. -/
def move (tails : Tails κ τ ε) : Move κ τ ε → Option (Tails κ τ ε)
  | .comes key task => some (tails.come key task)
  | .begins place =>
      match tails.progress? place with
      | some .waits => if tails.hasTurn place then some (tails.proceed place .runs) else none
      | _ => none
  | .ends place ending =>
      match tails.progress? place with
      | some .runs => some (tails.proceed place (.ended ending false false))
      | _ => none
  | .passes place =>
      match tails.progress? place with
      | some (.ended ending false settled) =>
          some (tails.proceed place (.ended ending true settled))
      | _ => none
  | .settles place =>
      match tails.progress? place with
      | some (.ended ending passed false) =>
          some ((tails.proceed place (.ended ending passed true)).release place)
      | _ => none

/-- What becomes of calls by some moves, one after another. -/
def after (tails : Tails κ τ ε) (moves : List (Move κ τ ε)) : Option (Tails κ τ ε) :=
  moves.foldlM move tails

/-! ## How many moves are left -/

theorem foldr_add {α : Type} (size : α → Nat) (items : List α) (start : Nat) :
    items.foldr (fun item others => size item + others) start
      = items.foldr (fun item others => size item + others) 0 + start := by
  induction items with
  | nil => simp
  | cons first rest ih =>
      rw [List.foldr_cons, List.foldr_cons, ih, Nat.add_assoc]

theorem foldr_modify {α : Type} (size : α → Nat) (change : α → α) {items : List α} {place : Nat}
    {item : α} (there : items[place]? = some item) :
    (items.modify place change).foldr (fun item others => size item + others) 0 + size item
      = items.foldr (fun item others => size item + others) 0 + size (change item) := by
  induction items generalizing place with
  | nil => cases there
  | cons first rest ih =>
      cases place with
      | zero =>
          cases there
          simp only [List.modify_zero_cons, List.foldr_cons]
          omega
      | succ place =>
          have rest := @ih place there
          simp only [List.modify_succ_cons, List.foldr_cons]
          omega

/-- What a move does, and when it can be made. -/
inductive Step (tails : Tails κ τ ε) : Move κ τ ε → Tails κ τ ε → Prop
  | comes (key : κ) (task : τ) : Step tails (.comes key task) (tails.come key task)
  | begins {place : Nat} (waits : tails.progress? place = some .waits)
      (turn : tails.hasTurn place = true) : Step tails (.begins place) (tails.proceed place .runs)
  | ends {place : Nat} (ending : ε) (runs : tails.progress? place = some .runs) :
      Step tails (.ends place ending) (tails.proceed place (.ended ending false false))
  | passes {place : Nat} {ending : ε} {settled : Bool}
      (ended : tails.progress? place = some (.ended ending false settled)) :
      Step tails (.passes place) (tails.proceed place (.ended ending true settled))
  | settles {place : Nat} {ending : ε} {passed : Bool}
      (ended : tails.progress? place = some (.ended ending passed false)) :
      Step tails (.settles place) ((tails.proceed place (.ended ending passed true)).release place)

section

variable {tails tails' : Tails κ τ ε} {move : Move κ τ ε}

theorem move_eq_some_iff : tails.move move = some tails' ↔ Step tails move tails' := by
  constructor
  · intro moves
    cases move with
    | comes key task =>
        cases moves
        exact .comes key task
    | begins place =>
        simp only [Tails.move] at moves
        split at moves
        next waits =>
          split at moves
          next turn =>
            cases moves
            exact .begins waits turn
          next => cases moves
        next => cases moves
    | ends place ending =>
        simp only [Tails.move] at moves
        split at moves
        next runs =>
          cases moves
          exact .ends ending runs
        next => cases moves
    | passes place =>
        simp only [Tails.move] at moves
        split at moves
        next ended =>
          cases moves
          exact .passes ended
        next => cases moves
    | settles place =>
        simp only [Tails.move] at moves
        split at moves
        next ended =>
          cases moves
          exact .settles ended
        next => cases moves
  · intro step
    cases step with
    | comes key task => rfl
    | begins waits turn => simp only [Tails.move, waits, if_pos turn]
    | ends ending runs => simp only [Tails.move, runs]
    | passes ended => simp only [Tails.move, ended]
    | settles ended => simp only [Tails.move, ended]

omit [DecidableEq κ] in
theorem left_proceed {place : Nat} {old : Progress ε} (there : tails.progress? place = some old)
    (new : Progress ε) : (tails.proceed place new).left + old.left = tails.left + new.left := by
  obtain ⟨visit, isVisit, rfl⟩ := Option.map_eq_some_iff.mp there
  exact foldr_modify (fun visit => visit.progress.left) _ isVisit

theorem left_release (tails : Tails κ τ ε) (place : Nat) : (tails.release place).left = tails.left := by
  unfold release
  split
  · split <;> rfl
  · rfl

theorem left_come (tails : Tails κ τ ε) (key : κ) (task : τ) :
    (tails.come key task).left = tails.left + 4 := by
  rw [left, come, List.foldr_append, foldr_add]
  rfl

/-- Every move but the coming of a call leaves one move less. -/
theorem left_step (step : Step tails move tails') :
    (∃ key task, move = .comes key task ∧ tails' = tails.come key task)
      ∨ tails'.left + 1 = tails.left := by
  cases step with
  | comes key task => exact .inl ⟨key, task, rfl, rfl⟩
  | begins waits turn =>
      have sum := left_proceed waits .runs
      exact .inr (by simpa [Progress.left, Nat.add_assoc] using sum)
  | ends ending runs =>
      have sum := left_proceed runs (.ended ending false false)
      exact .inr (by simpa [Progress.left, Nat.add_assoc] using sum)
  | @passes place ending settled ended =>
      have sum := left_proceed ended (.ended ending true settled)
      simp only [Progress.left, Bool.not_true, Bool.not_false, Bool.toNat_true,
        Bool.toNat_false] at sum
      exact .inr (by omega)
  | @settles place ending passed ended =>
      have sum := left_proceed ended (.ended ending passed true)
      simp only [Progress.left, Bool.not_true, Bool.not_false, Bool.toNat_true,
        Bool.toNat_false] at sum
      rw [left_release]
      exact .inr (by omega)

end

end Tails

end DocStore
