import DocStore.Proofs.Files.Names
import Mathlib.Logic.Function.Basic
/-!
# Contests

Several programs contend for one name.  Each of them prepares something under a fresh name of its
own before it tries to bring it to the name that all want, and it knows afterwards whether it has
won.  `Spread` says that under the fresh names in use lies what the stages of the programs say, and
nothing has changed elsewhere; `Settled` says that nobody has won yet, or exactly one has.  There is
one lemma for each thing that a program can do: it goes on with the name that it uses or without one
(`same`), draws a name (`Spread.draws`) or gives it up (`Spread.drops`), finds that another one has
won (`Settled.loses`), or wins (`Settled.wins`).
-/

set_option autoImplicit false

namespace DocStore.Host

variable {σ τ : Type}

/-- What programs contend for, told of the stages that they come to and of what lies under names. -/
structure Contest (σ τ : Type) where
  /-- The name that all want. -/
  prize : String
  /-- The name that is made of a fresh one. -/
  fresh : Nat → String
  /-- The fresh name that a program uses. -/
  own? : σ → Option String
  /-- What lies under the fresh name that a program uses. -/
  holds : σ → τ → Prop
  /-- Whether a program has won, once it knows. -/
  won? : σ → Option Bool
  /-- What lies under the name that all want while nobody has won. -/
  vacant : τ → Prop
  /-- What lies there when the program at a stage has won. -/
  taken : σ → τ → Prop
  fresh_ne : ∀ number, fresh number ≠ prize
  fresh_inj : ∀ {first second : Nat}, first < Nat.pow 10 Machine.freshNameLength →
    second < Nat.pow 10 Machine.freshNameLength → fresh first = fresh second → first = second
  not_vacant : ∀ {stage : σ} {found : τ}, taken stage found → ¬ vacant found

namespace Contest

variable (contest : Contest σ τ) (view : String → τ) (first names : Nat)

/-- The fresh name that the program at a place uses. -/
def ownAt (stages : Nat → Option σ) (place : Nat) : Option String :=
  (stages place).bind contest.own?

/-- Whether the program at a place has won, once it knows. -/
def wonAt (stages : Nat → Option σ) (place : Nat) : Option Bool :=
  (stages place).bind contest.won?

/-- Under the fresh names that are in use lies what the stages say, every program has one of its
own, and nothing has changed under any other name but the one that all want. -/
structure Spread (stages : Nat → Option σ) (found : String → τ) : Prop where
  holds : ∀ place stage name, stages place = some stage → contest.own? stage = some name →
    contest.holds stage (found name)
  drawn : ∀ place name, contest.ownAt stages place = some name →
    ∃ number, first ≤ number ∧ number < names ∧ name = contest.fresh number
  apart : ∀ place place' name, contest.ownAt stages place = some name →
    contest.ownAt stages place' = some name → place = place'
  elsewhere : ∀ name, name ≠ contest.prize → (∀ place, contest.ownAt stages place ≠ some name) →
    found name = view name

/-- Nobody has won, or exactly one has. -/
inductive Settled (stages : Nat → Option σ) (found : String → τ) : Prop
  | nobody (unknown : ∀ place, contest.wonAt stages place = none)
      (vacant : contest.vacant (found contest.prize))
  | winner {place : Nat} {stage : σ} (isStage : stages place = some stage)
      (only : ∀ place', contest.wonAt stages place' = some true ↔ place' = place)
      (taken : contest.taken stage (found contest.prize))

variable {contest view first names} {stages : Nat → Option σ} {found found' : String → τ}
  {place : Nat} {stage stage' : σ}

theorem ownAt_update (other : Nat) :
    contest.ownAt (Function.update stages place (some stage')) other
      = if other = place then contest.own? stage' else contest.ownAt stages other := by
  by_cases same : other = place <;> simp [ownAt, same]

theorem wonAt_update (other : Nat) :
    contest.wonAt (Function.update stages place (some stage')) other
      = if other = place then contest.won? stage' else contest.wonAt stages other := by
  by_cases same : other = place <;> simp [wonAt, same]

theorem ownAt_of_isStage (isStage : stages place = some stage) :
    contest.ownAt stages place = contest.own? stage := by
  rw [ownAt, isStage, Option.bind_some]

theorem wonAt_of_isStage (isStage : stages place = some stage) :
    contest.wonAt stages place = contest.won? stage := by
  rw [wonAt, isStage, Option.bind_some]

/-! ## Who wins -/

namespace Settled

variable (settled : contest.Settled stages found) (isStage : stages place = some stage)
include settled isStage

/-- A program goes on, and what lies under the name that all want stays. -/
theorem same (same : contest.won? stage' = contest.won? stage)
    (keeps : ∀ tree, contest.taken stage tree → contest.taken stage' tree)
    (untouched : found' contest.prize = found contest.prize) :
    contest.Settled (Function.update stages place (some stage')) found' := by
  have won (other : Nat) :
      contest.wonAt (Function.update stages place (some stage')) other = contest.wonAt stages other := by
    rw [wonAt_update, same, ← wonAt_of_isStage isStage]
    split
    next here => rw [here]
    next => rfl
  cases settled with
  | nobody unknown vacant =>
      exact .nobody (fun other => (won other).trans (unknown other)) (untouched.symm ▸ vacant)
  | @winner winner wins isWinner only taken =>
      by_cases here : winner = place
      · subst here
        rw [isStage] at isWinner
        cases isWinner
        exact .winner (Function.update_self ..) (fun other => by rw [won, only])
          (untouched.symm ▸ keeps _ taken)
      · exact .winner ((Function.update_of_ne here ..).trans isWinner)
          (fun other => by rw [won, only]) (untouched.symm ▸ taken)

/-- A program that finds the name taken learns that another one has won. -/
theorem loses (unknown : contest.won? stage = none) (learns : contest.won? stage' = some false)
    (there : ¬ contest.vacant (found contest.prize)) :
    contest.Settled (Function.update stages place (some stage')) found := by
  cases settled with
  | nobody _ vacant => exact absurd vacant there
  | @winner winner wins isWinner only taken =>
      have notWinner : winner ≠ place := by
        intro isPlace
        have won := (only place).mpr isPlace.symm
        rw [wonAt_of_isStage isStage, unknown] at won
        cases won
      refine .winner ((Function.update_of_ne notWinner ..).trans isWinner) (fun other => ?_) taken
      rw [wonAt_update]
      split
      next here => simp [here, notWinner.symm, learns]
      next => exact only other

omit isStage in
/-- A program that finds the name free wins. -/
theorem wins (wins : contest.won? stage' = some true)
    (free : contest.vacant (found contest.prize))
    (taken : contest.taken stage' (found' contest.prize)) :
    contest.Settled (Function.update stages place (some stage')) found' := by
  cases settled with
  | winner _ _ taken => exact absurd free (contest.not_vacant taken)
  | nobody unknown _ =>
      refine .winner (Function.update_self ..) (fun other => ?_) taken
      rw [wonAt_update, unknown]
      by_cases here : other = place <;> simp [here, wins]

end Settled

/-! ## What lies under fresh names -/

/-- While nobody uses a fresh name nothing has changed, and nobody has won. -/
theorem start (early : ∀ place stage, stages place = some stage →
      contest.own? stage = none ∧ contest.won? stage = none)
    (free : contest.vacant (view contest.prize)) :
    contest.Spread view first names stages view ∧ contest.Settled stages view := by
  have unused (place : Nat) : contest.ownAt stages place = none :=
    Option.bind_eq_none_iff.mpr fun stage isStage => (early place stage isStage).1
  have unknown (place : Nat) : contest.wonAt stages place = none :=
    Option.bind_eq_none_iff.mpr fun stage isStage => (early place stage isStage).2
  refine ⟨⟨fun place stage name isStage isOwn => ?_, fun place name isOwn => ?_,
    fun place _ name isOwn => ?_, fun _ _ _ => rfl⟩, .nobody unknown free⟩
  · rw [← ownAt_of_isStage isStage, unused] at isOwn
    cases isOwn
  · rw [unused] at isOwn
    cases isOwn
  · rw [unused] at isOwn
    cases isOwn

namespace Spread

variable (spread : contest.Spread view first names stages found)
include spread

/-- A fresh name is not the one that all want. -/
theorem own_ne {name : String} (isOwn : contest.ownAt stages place = some name) :
    name ≠ contest.prize := by
  obtain ⟨number, _, _, rfl⟩ := spread.drawn place name isOwn
  exact contest.fresh_ne number

variable (isStage : stages place = some stage)
include isStage

/-- A program goes on with the fresh name that it uses, and touches nothing else but the name that
all want. -/
theorem same (same : contest.own? stage' = contest.own? stage)
    (owns : ∀ name, contest.own? stage = some name → contest.holds stage' (found' name))
    (untouched : ∀ name, name ≠ contest.prize → contest.own? stage ≠ some name →
      found' name = found name) :
    contest.Spread view first names (Function.update stages place (some stage')) found' := by
  have own (other : Nat) :
      contest.ownAt (Function.update stages place (some stage')) other = contest.ownAt stages other := by
    rw [ownAt_update, same, ← ownAt_of_isStage isStage]
    split
    next here => rw [here]
    next => rfl
  refine ⟨fun other stage'' name isOther isOwn => ?_, fun other name isOwn => ?_,
    fun other other' name isOwn isOwn' => ?_, fun name notPrize unused => ?_⟩
  · by_cases here : other = place
    · subst here
      rw [Function.update_self] at isOther
      cases isOther
      exact owns name (same ▸ isOwn)
    · rw [Function.update_of_ne here] at isOther
      have isTheirs : contest.ownAt stages other = some name :=
        (ownAt_of_isStage isOther).trans isOwn
      have notOwn : contest.own? stage ≠ some name := fun isOurs =>
        here (spread.apart other place name isTheirs ((ownAt_of_isStage isStage).trans isOurs))
      rw [untouched name (spread.own_ne isTheirs) notOwn]
      exact spread.holds other stage'' name isOther isOwn
  · exact spread.drawn other name ((own other).symm.trans isOwn)
  · exact spread.apart other other' name ((own other).symm.trans isOwn)
      ((own other').symm.trans isOwn')
  · have unused' (other : Nat) : contest.ownAt stages other ≠ some name := own other ▸ unused other
    rw [untouched name notPrize (ownAt_of_isStage isStage ▸ unused' place)]
    exact spread.elsewhere name notPrize unused'

/-- A program goes on that uses no fresh name, and touches nothing but the name that all want. -/
theorem idle (unused : contest.own? stage = none) (unused' : contest.own? stage' = none)
    (untouched : ∀ name, name ≠ contest.prize → found' name = found name) :
    contest.Spread view first names (Function.update stages place (some stage')) found' := by
  refine spread.same isStage (unused'.trans unused.symm) (fun name uses => ?_)
    fun name notPrize _ => untouched name notPrize
  rw [unused] at uses
  cases uses

/-- A fresh name is not in use before it is drawn. -/
theorem draws (none : contest.own? stage = none) (later : first ≤ names)
    (few : names < Nat.pow 10 Machine.freshNameLength)
    (draws : contest.own? stage' = some (contest.fresh names))
    (unused : contest.holds stage' (view (contest.fresh names))) :
    contest.Spread view first (names + 1) (Function.update stages place (some stage')) found := by
  have notUsed (other : Nat) : contest.ownAt stages other ≠ some (contest.fresh names) := by
    intro isOwn
    obtain ⟨number, _, isBefore, same⟩ := spread.drawn other _ isOwn
    have isNumber := contest.fresh_inj few (Nat.lt_trans isBefore few) same
    omega
  have notPrize := contest.fresh_ne names
  refine ⟨fun other stage'' name isOther isOwn => ?_, fun other name isOwn => ?_,
    fun other other' name isOwn isOwn' => ?_, fun name notPrize unusedNow => ?_⟩
  · by_cases here : other = place
    · subst here
      rw [Function.update_self] at isOther
      cases isOther
      rw [draws] at isOwn
      cases isOwn
      exact (spread.elsewhere _ notPrize notUsed).symm ▸ unused
    · rw [Function.update_of_ne here] at isOther
      exact spread.holds other stage'' name isOther isOwn
  · rw [ownAt_update] at isOwn
    split at isOwn
    next =>
      rw [draws] at isOwn
      cases isOwn
      exact ⟨names, later, Nat.lt_succ_self names, rfl⟩
    next =>
      obtain ⟨number, after, before, isName⟩ := spread.drawn other name isOwn
      exact ⟨number, after, Nat.lt_succ_of_lt before, isName⟩
  · rw [ownAt_update] at isOwn isOwn'
    rw [draws] at isOwn isOwn'
    split at isOwn <;> split at isOwn'
    next here here' => rw [here, here']
    next =>
      cases isOwn
      exact absurd isOwn' (notUsed other')
    next =>
      cases isOwn'
      exact absurd isOwn (notUsed other)
    next => exact spread.apart other other' name isOwn isOwn'
  · refine spread.elsewhere name notPrize fun other isOwn => unusedNow other ?_
    rw [ownAt_update, if_neg, isOwn]
    rintro rfl
    rw [ownAt_of_isStage isStage, none] at isOwn
    cases isOwn

/-- A fresh name is given up when what lies under it is what lay there before. -/
theorem drops {name : String} (uses : contest.own? stage = some name)
    (none : contest.own? stage' = none) (gone : found' name = view name)
    (untouched : ∀ other, other ≠ name → found' other = found other) :
    contest.Spread view first names (Function.update stages place (some stage')) found' := by
  have isOurs := (ownAt_of_isStage isStage).trans uses
  have others {other : Nat} {name' : String}
      (isOwn : contest.ownAt (Function.update stages place (some stage')) other = some name') :
      other ≠ place ∧ contest.ownAt stages other = some name' := by
    rw [ownAt_update, none] at isOwn
    split at isOwn
    next => cases isOwn
    next elsewhere => exact ⟨elsewhere, isOwn⟩
  refine ⟨fun other stage'' name' isOther isOwn => ?_, fun other name' isOwn => ?_,
    fun other other' name' isOwn isOwn' => ?_, fun name' notPrize unusedNow => ?_⟩
  · obtain ⟨elsewhere, isTheirs⟩ := others ((ownAt_of_isStage isOther).trans isOwn)
    rw [Function.update_of_ne elsewhere] at isOther
    rw [untouched name' fun same => elsewhere (spread.apart other place name' isTheirs (same ▸ isOurs))]
    exact spread.holds other stage'' name' isOther isOwn
  · exact spread.drawn other name' (others isOwn).2
  · exact spread.apart other other' name' (others isOwn).2 (others isOwn').2
  · by_cases same : name' = name
    · rw [same, gone]
    · rw [untouched name' same]
      refine spread.elsewhere name' notPrize fun other isOwn => unusedNow other ?_
      rw [ownAt_update, if_neg, isOwn]
      rintro rfl
      rw [isOurs] at isOwn
      exact same (Option.some.inj isOwn).symm

end Spread

end Contest

end DocStore.Host
