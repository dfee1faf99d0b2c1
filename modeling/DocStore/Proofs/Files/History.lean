import DocStore.Proofs.Files.Glimpses
import DocStore.Proofs.Files.Shared
/-!
# The history of a shared root

While programs that share a root make their steps, what lies below the root advances from one time
to the next (`History`, `Shared.history`); so it does while one program alone writes, which then
needs no lock (`Lone.history`).  At every time every collection is whole and what is asked about it
is told (`History.clear`).  A directory for documents stays as long as its collection stands
(`History.shelf_stays`), and once it has gone it does not come back: what is there at two times has
been there all the time between (`History.shelf_between`).
-/

set_option autoImplicit false

namespace DocStore

open Disk (Branch Path Place Shows Vacant)
open Files (Named)
open Host (Confined Machine Pool)

/-- What lies below a root advances from nothing, step by step, up to a time. -/
structure History (layouts : Set Json.Layout) (origin : Disk) (home : Place)
    (machines : Nat → Machine) (finish : Nat) : Prop where
  shows : ∀ time ≤ finish,
    Shows origin home ((machines time).disk.branchAt home) (machines time).disk
  nothing : (machines 0).disk.branchAt home = fun _ => none
  advances : ∀ time < finish, Advances layouts (machines time).disk.nextIdentity
    ((machines time).disk.branchAt home) ((machines (time + 1)).disk.branchAt home)
  grows : ∀ time < finish,
    (machines time).disk.nextIdentity ≤ (machines (time + 1)).disk.nextIdentity

namespace History

variable {layouts : Set Json.Layout} {origin : Disk} {home : Place} {machines : Nat → Machine}
  {finish : Nat} (history : History layouts origin home machines finish)
include history

/-! ## What holds at every time -/

theorem whole {name : String} (named : Named name) {time : Nat} (early : time ≤ finish) :
    Whole layouts ((machines time).disk.branchAt home) name := by
  induction time with
  | zero =>
      rw [history.nothing]
      exact ⟨.inl ⟨rfl, rfl⟩, fun _ _ _ found => nomatch found⟩
  | succ time ih => exact (history.advances time early).whole name named (ih (Nat.le_of_lt early))

theorem toldApart {time : Nat} (early : time ≤ finish) :
    ToldApart ((machines time).disk.branchAt home) := by
  induction time with
  | zero =>
      rw [history.nothing]
      exact fun _ _ _ _ _ found => nomatch found
  | succ time ih => exact (history.advances time early).apart (ih (Nat.le_of_lt early))

/-- **At every time** nothing that is asked about a collection fails. -/
theorem clear (blank : ∀ layout ∈ layouts, layout.Blank) {store : FileStore}
    (vacant : Vacant origin store.root home) {name : String} (named : Named name) {time : Nat}
    (early : time ≤ finish) :
    Clear store name (machines time) ∧ (store.glimpse name (machines time)).shelf
      = shelf? ((machines time).disk.branchAt home) name :=
  (history.whole named early).clear store vacant (history.shows time early) named blank

/-! ## From one time to another -/

/-- A directory for documents stays where it is, or it is discarded. -/
theorem stays_or_discarded {name : String} (named : Named name) {identity : Nat} {start time : Nat}
    (isShelf : shelf? ((machines start).disk.branchAt home) name = some identity)
    (later : start ≤ time) (early : time ≤ finish) :
    (∀ between, start ≤ between → between ≤ time →
        shelf? ((machines between).disk.branchAt home) name = some identity)
      ∨ identity < (machines time).disk.nextIdentity
        ∧ Discarded ((machines time).disk.branchAt home) identity := by
  induction time, later using Nat.le_induction with
  | base =>
      refine .inl fun between later early => ?_
      obtain rfl := Nat.le_antisymm early later
      exact isShelf
  | succ time later ih =>
      have advances := history.advances time early
      have grows := history.grows time early
      rcases ih (Nat.le_of_lt early) with stays | ⟨given, discarded⟩
      · have isShelf' := stays time later (Nat.le_refl time)
        have apart := history.toldApart (Nat.le_of_lt early)
        rcases advances.lasts apart name identity named isShelf' with isShelf'' | ⟨_, discarded⟩
        · refine .inl fun between after before => ?_
          rcases Nat.le_succ_iff.mp before with before | rfl
          · exact stays between after before
          · exact isShelf''
        · have given := (history.shows time (Nat.le_of_lt early)).lt_nextIdentity
            (shelf?_eq_some_iff.mp isShelf') rfl
          exact .inr ⟨Nat.lt_of_lt_of_le given grows, discarded⟩
      · exact .inr ⟨Nat.lt_of_lt_of_le given grows, advances.discarded identity given discarded⟩

/-- **A directory that is there at two times** has been there all the time between. -/
theorem shelf_between {name : String} (named : Named name) {identity : Nat} {start time : Nat}
    (isShelf : shelf? ((machines start).disk.branchAt home) name = some identity)
    (isShelf' : shelf? ((machines time).disk.branchAt home) name = some identity)
    (early : time ≤ finish) {between : Nat} (after : start ≤ between) (before : between ≤ time) :
    shelf? ((machines between).disk.branchAt home) name = some identity := by
  rcases history.stays_or_discarded named isShelf (Nat.le_trans after before) early with
    stays | ⟨_, discarded⟩
  · exact stays between after before
  · exact absurd isShelf' (discarded name named.inUse)

/-- A directory stays as long as its collection stands. -/
theorem shelf_stays {name : String} (named : Named name) {identity : Nat} {start time : Nat}
    (isShelf : shelf? ((machines start).disk.branchAt home) name = some identity)
    (later : start ≤ time) (early : time ≤ finish)
    (stands : ∀ between, start ≤ between → between ≤ time →
      shelf? ((machines between).disk.branchAt home) name ≠ none) :
    shelf? ((machines time).disk.branchAt home) name = some identity := by
  induction time, later using Nat.le_induction with
  | base => exact isShelf
  | succ time later ih =>
      have isShelf' := ih (Nat.le_of_lt early) fun between after before =>
        stands between after (Nat.le_succ_of_le before)
      have apart := history.toldApart (Nat.le_of_lt early)
      rcases (history.advances time early).lasts apart name identity named isShelf' with
        isShelf'' | ⟨gone, _⟩
      · exact isShelf''
      · have noShelf : shelf? ((machines (time + 1)).disk.branchAt home) name = none := by
          rcases (history.whole named early).standing with ⟨_, nothing⟩ | ⟨_, _, there, _⟩
          · rw [shelf?, nothing]
          · rw [gone] at there
            cases there
        exact absurd noShelf (stands (time + 1) (Nat.le_succ_of_le later) (Nat.le_refl _))

end History

/-- What holds at the start, and goes on to hold while it lets a branch advance, makes a history. -/
theorem History.of_steps {layouts : Set Json.Layout} {origin : Disk} {home : Place}
    {machines : Nat → Machine} {finish : Nat} {holds : Nat → Branch → Prop}
    (start : holds 0 fun _ => none)
    (shows : ∀ time branch, holds time branch → Shows origin home branch (machines time).disk)
    (goesOn : ∀ time branch, time < finish → holds time branch → ∃ branch',
      holds (time + 1) branch'
        ∧ Advances layouts (machines time).disk.nextIdentity branch branch')
    (grows : ∀ time < finish,
      (machines time).disk.nextIdentity ≤ (machines (time + 1)).disk.nextIdentity) :
    History layouts origin home machines finish := by
  have known (time : Nat) (early : time ≤ finish) :
      holds time ((machines time).disk.branchAt home) := by
    induction time with
    | zero => exact (shows 0 _ start).branchAt_eq ▸ start
    | succ time ih =>
        obtain ⟨branch', holds', _⟩ := goesOn time _ early (ih (Nat.le_of_lt early))
        exact (shows _ _ holds').branchAt_eq ▸ holds'
  refine ⟨fun time early => shows _ _ (known time early), (shows 0 _ start).branchAt_eq,
    fun time early => ?_, grows⟩
  obtain ⟨branch', holds', advances⟩ := goesOn time _ early (known time (Nat.le_of_lt early))
  exact (shows _ _ holds').branchAt_eq ▸ advances

/-! ## Programs that share a root -/

/-- **Programs that share a root** from the start on have a history, as long as fresh names do not
start over. -/
theorem Shared.history {setting : Setting} {root : Nat → Path} {name : Nat → String} {α : Type}
    {ends : Nat → Stage → α → Prop} {first : Nat} {pool : Pool α} {stages : Nat → Stage}
    {kept : Cabinet} {view : Branch} {taken : List Nat}
    (shared : Shared setting root name ends first pool stages kept view (fun _ => none) taken)
    (vacant : ∀ place, Named (name place) → Vacant setting.origin (root place) setting.home)
    {turns : Nat → Nat} {finish : Nat}
    (few : (pool.machineAt turns finish).names ≤ Nat.pow 10 Machine.freshNameLength) :
    History setting.layouts setting.origin setting.home (pool.machineAt turns) finish := by
  have fewer (time : Nat) (early : time ≤ finish) :
      (pool.machineAt turns time).names ≤ Nat.pow 10 Machine.freshNameLength := by
    induction finish, early using Nat.le_induction with
    | base => exact few
    | succ finish later ih => exact ih (Nat.le_trans (Pool.names_le_step _ _) few)
  let sharing (time : Nat) (branch : Branch) : Prop := ∃ stages kept view taken,
    Shared setting root name ends first (pool.atTime turns time) stages kept view branch taken
  have start : sharing 0 fun _ => none := ⟨stages, kept, view, taken, shared⟩
  refine .of_steps start (fun time branch sharing => ?_) (fun time branch early sharing => ?_)
    fun time _ => Pool.nextIdentity_le_step _ _
  · obtain ⟨_, _, _, _, shared⟩ := sharing
    exact shared.files.sees.shows
  · obtain ⟨_, _, _, _, shared⟩ := sharing
    obtain ⟨stages', kept', view', branch', shared', advances⟩ :=
      shared.step vacant (fun _ _ => rfl) (fewer (time + 1) early)
    exact ⟨branch', ⟨stages', kept', view', _, shared'⟩, advances⟩

/-! ## One program that writes -/

/-- Of all programs one alone does more than look, and it owns what lies below a root. -/
structure Lone (layouts : Set Json.Layout) (origin : Disk) (home : Place) {α : Type} (place : Nat)
    (pool : Pool α) (branch : Branch) : Prop where
  shows : Shows origin home branch pool.machine.disk
  confined : ∀ program, pool.program? place = some program →
    Confined (Advances layouts) origin home (fun _ _ => True) Set.univ branch program
  looks : ∀ other program, other ≠ place → pool.program? other = some program →
    program.Asks Host.Request.Looks

namespace Lone

variable {layouts : Set Json.Layout} {origin : Disk} {home : Place} {α : Type} {place : Nat}
  {pool : Pool α} {branch : Branch} (lone : Lone layouts origin home place pool branch)
include lone

/-- **One step**, whoever makes it. -/
theorem step (turn : Nat) : ∃ branch', Lone layouts origin home place (pool.step turn) branch'
    ∧ Advances layouts pool.machine.disk.nextIdentity branch branch' := by
  have moves := pool.step_moves turn
  generalize pool.step turn = pool' at moves
  cases moves with
  | stays _ machine programs =>
      exact ⟨branch, ⟨machine ▸ lone.shows,
        fun program there => lone.confined program (programs place ▸ there),
        fun other program differ there =>
          lone.looks other program differ (programs other ▸ there)⟩, .refl branch⟩
  | @asks request next isNext machine programs =>
      by_cases isTurn : turn = place
      · subst isTurn
        obtain ⟨branch', _, shows, moved, goesOn⟩ := (lone.confined _ isNext).step lone.shows
        refine ⟨branch', ⟨machine ▸ shows, fun program there => ?_,
          fun other program differ there => lone.looks other program differ ?_⟩, ?_⟩
        · rw [programs, if_pos rfl] at there
          cases there
          exact goesOn
        · rwa [programs, if_neg differ] at there
        · cases moved with
          | refl => exact .refl branch
          | single advances => exact advances
      · cases lone.looks turn _ isTurn isNext with
        | ask looks goesOn =>
            rw [looks.answer_snd] at machine
            refine ⟨branch, ⟨machine ▸ lone.shows, fun program there => ?_,
              fun other program differ there => ?_⟩, .refl branch⟩
            · rw [programs, if_neg (Ne.symm isTurn)] at there
              exact lone.confined program there
            · rw [programs] at there
              split at there
              · cases there
                exact goesOn _
              · exact lone.looks other program differ there

omit lone in
/-- **Programs of which one alone writes** have a history from the start on. -/
theorem history (lone : Lone layouts origin home place pool fun _ => none) (turns : Nat → Nat)
    (finish : Nat) : History layouts origin home (pool.machineAt turns) finish := by
  let lonely (time : Nat) (branch : Branch) : Prop :=
    Lone layouts origin home place (pool.atTime turns time) branch
  have start : lonely 0 fun _ => none := lone
  exact .of_steps start (fun _ _ lone => lone.shows) (fun time _ _ lone => lone.step (turns time))
    fun time _ => Pool.nextIdentity_le_step _ _

end Lone

end DocStore
