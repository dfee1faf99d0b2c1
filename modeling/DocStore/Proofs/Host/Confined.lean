import DocStore.Proofs.Disk.Views
import DocStore.Proofs.Host.Run
import Mathlib.Data.List.Forall2
import Mathlib.Logic.Relation
/-!
# Programs that keep to their own

Between two requests of a program others may change the disk.  A program is confined to some first
names when all that it changes is under them, whatever happens elsewhere meanwhile; so it is told by
its view alone what it does (`Confined`).  With a fresh name it comes to own the hidden names that
are made of it.  Whenever its view changes it makes a move of some kind, so that it is known what
others can see of it meanwhile.

`Secures` says so of an action with its result and what is known of the view that it leaves.
`Secures.bind` follows one action after another, and `Secures.yields` says what such an action does
when nobody else is about.
-/

set_option autoImplicit false

namespace DocStore.Host

open Disk (Becomes Branch Place Sees Shows Under)

/-- The hidden names that are made of a fresh name. -/
def marked (number : Nat) : Set String :=
  {".staging-" ++ Machine.freshName number, ".trash-" ++ Machine.freshName number}

/-- A program that changes what is under its own first names and nothing else, whatever others
change elsewhere between its requests.  `moves` tells how its view changes in a step, if it does,
once so many identities have been given; `ends` tells what it sees at its end, together with the
result. -/
inductive Confined (moves : Nat → Branch → Branch → Prop) (origin : Disk) (home : Place) {α : Type}
    (ends : Branch → α → Prop) : Set String → Branch → Program interface α → Prop
  | done {heads : Set String} {view : Branch} {result : α} (holds : ends view result) :
      Confined moves origin home ends heads view (.done result)
  | freshName {heads : Set String} {view : Branch} {next : String → Program interface α}
      (goesOn : ∀ number, Confined moves origin home ends (heads ∪ marked number) view
        (next (Machine.freshName number))) :
      Confined moves origin home ends heads view (.ask .freshName next)
  | ask {heads : Set String} {view : Branch} {request : Request}
      {next : request.Answer → Program interface α} (after : Machine → Branch → Branch)
      (same : ∀ machine, Machine.Same machine (Machine.answer request machine).2)
      (becomes : ∀ machine branch, Sees origin home heads view branch machine.disk →
        Becomes origin home heads branch (after machine branch)
          (Machine.answer request machine).2.disk)
      (moved : ∀ machine branch, Sees origin home heads view branch machine.disk →
        Relation.ReflGen (moves machine.disk.nextIdentity) view (after machine branch))
      (goesOn : ∀ machine branch, Sees origin home heads view branch machine.disk →
        Confined moves origin home ends heads (after machine branch)
          (next (Machine.answer request machine).1)) :
      Confined moves origin home ends heads view (.ask request next)

/-- Moves of every kind, where nobody relies on how a view changes. -/
def anyMoves : Nat → Branch → Branch → Prop := fun _ _ _ => True

namespace Confined

variable {α β : Type} {moves : Nat → Branch → Branch → Prop} {origin : Disk} {home : Place}
  {ends ends' : Branch → α → Prop} {heads : Set String} {view : Branch} {program : Program interface α}

theorem mono (confined : Confined moves origin home ends heads view program)
    (implies : ∀ view result, ends view result → ends' view result) :
    Confined moves origin home ends' heads view program := by
  induction confined with
  | done holds => exact .done (implies _ _ holds)
  | freshName _ ih => exact .freshName ih
  | ask after same becomes moved _ ih => exact .ask after same becomes moved ih

/-- Who is confined to some names is confined to more. -/
theorem more {heads' : Set String} (confined : Confined moves origin home ends heads view program)
    (inside : view.Inside heads) (more : heads ⊆ heads') :
    Confined moves origin home ends heads' view program := by
  induction confined generalizing heads' with
  | done holds => exact .done holds
  | freshName _ ih =>
      refine .freshName fun number => ih number (fun names notOwn => inside names fun own =>
        notOwn (own.mono Set.subset_union_left)) (Set.union_subset_union_left _ more)
  | ask after same becomes moved goesOn ih =>
      refine .ask after same (fun machine branch sees => ?_)
        (fun machine branch sees => moved machine branch (sees.of_more more inside))
        fun machine branch sees => ?_
      · exact (becomes machine branch (sees.of_more more inside)).more more sees inside
      · have sees' := sees.of_more more inside
        obtain ⟨branch', sees'', _⟩ := becomes machine branch sees'
        exact ih machine branch sees' sees''.inside more

/-- Nobody need rely on how a view changes. -/
theorem any (confined : Confined moves origin home ends heads view program) :
    Confined anyMoves origin home ends heads view program := by
  induction confined with
  | done holds => exact .done holds
  | freshName _ ih => exact .freshName ih
  | ask after same becomes moved _ ih =>
      refine .ask after same becomes (fun machine branch sees => ?_) ih
      exact (moved machine branch sees).mono fun _ _ _ => trivial

/-- One program after another. -/
theorem bind {next : α → Program interface β} {ends' : Branch → β → Prop}
    (confined : Confined moves origin home (fun view result => ends view result ∧ view.Inside heads)
      heads view program)
    (goesOn : ∀ view result, ends view result → view.Inside heads →
      Confined moves origin home ends' heads view (next result)) :
    Confined moves origin home ends' heads view (program.bind next) := by
  suffices goes : ∀ {heads' : Set String} {view : Branch} {program : Program interface α},
      Confined moves origin home (fun view result => ends view result ∧ view.Inside heads) heads'
        view program →
      heads ⊆ heads' → Confined moves origin home ends' heads' view (program.bind next) from
    goes confined (Set.Subset.refl heads)
  intro heads' view program confined more
  induction confined with
  | done holds => exact (goesOn _ _ holds.1 holds.2).more holds.2 more
  | freshName _ ih => exact .freshName fun number => ih number (more.trans Set.subset_union_left)
  | ask after same becomes moved _ ih =>
      exact .ask after same becomes moved fun machine branch sees => ih machine branch sees more

/-- The next step of a confined program that owns everything, when nobody else is about. -/
theorem step {request : Request} {next : request.Answer → Program interface α}
    (confined : Confined moves origin home ends Set.univ view (.ask request next))
    {machine : Machine} (shows : Shows origin home view machine.disk) :
    ∃ view', machine.Same (Machine.answer request machine).2
      ∧ Shows origin home view' (Machine.answer request machine).2.disk
      ∧ Relation.ReflGen (moves machine.disk.nextIdentity) view view'
      ∧ Confined moves origin home ends Set.univ view'
        (next (Machine.answer request machine).1) := by
  cases confined with
  | freshName goesOn =>
      have goes := goesOn machine.names
      rw [Set.univ_union] at goes
      exact ⟨view, ⟨rfl, rfl, rfl⟩, shows, .refl, goes⟩
  | ask after same becomes moved goesOn =>
      exact ⟨after machine view, same machine, (becomes machine view shows.sees).shows,
        moved machine view shows.sees, goesOn machine view shows.sees⟩

/-- A confined program that owns everything, when nobody else is about. -/
theorem run (confined : Confined moves origin home ends Set.univ view program) {machine : Machine}
    (shows : Shows origin home view machine.disk) :
    ∃ view', machine.Same (machine.run program).2
      ∧ Shows origin home view' (machine.run program).2.disk
      ∧ ends view' (machine.run program).1 := by
  induction program generalizing view machine with
  | done result =>
      cases confined with
      | done holds => exact ⟨view, .refl machine, shows, holds⟩
  | ask request next ih =>
      obtain ⟨view', same, shows', _, goesOn⟩ := confined.step shows
      obtain ⟨view'', same', shows'', holds⟩ := ih _ goesOn shows'
      exact ⟨view'', same.trans same', shows'', holds⟩

end Confined

/-! ## Actions -/

/-- An action that is confined to some first names ends with a result and a view of some kind. -/
def Secures {α : Type} (moves : Nat → Branch → Branch → Prop) (origin : Disk) (home : Place)
    (heads : Set String) (view : Branch) (action : Action α) (result : Except Failure α)
    (holds : Branch → Prop) : Prop :=
  view.Inside heads → Confined moves origin home
    (fun view result' => (result' = result ∧ holds view) ∧ view.Inside heads) heads view
    action.toProgram

namespace Secures

variable {α β : Type} {moves : Nat → Branch → Branch → Prop} {origin : Disk} {home : Place}
  {heads : Set String} {view : Branch} {holds holds' : Branch → Prop}

/-- Nobody need rely on how an action changes the view. -/
theorem any {action : Action α} {result : Except Failure α}
    (secures : Secures moves origin home heads view action result holds) :
    Secures anyMoves origin home heads view action result holds :=
  fun inside => (secures inside).any

theorem pure (value : α) (held : holds view) :
    Secures moves origin home heads view (Pure.pure value) (.ok value) holds :=
  fun inside => .done ⟨⟨rfl, held⟩, inside⟩

theorem fail (failure : Failure) (held : holds view) :
    Secures moves origin home heads view (Attempt.fail failure : Action α) (.error failure) holds :=
  fun inside => .done ⟨⟨rfl, held⟩, inside⟩

theorem mono {action : Action α} {result : Except Failure α}
    (secures : Secures moves origin home heads view action result holds)
    (implies : ∀ view, holds view → holds' view) :
    Secures moves origin home heads view action result holds' :=
  fun inside => (secures inside).mono fun _ _ ends => ⟨⟨ends.1.1, implies _ ends.1.2⟩, ends.2⟩

/-- One action after another that succeeds. -/
theorem bind {first : Action α} {next : α → Action β} {value : α} {result : Except Failure β}
    (secures : Secures moves origin home heads view first (.ok value) holds)
    (goesOn : ∀ view, holds view → Secures moves origin home heads view (next value) result holds') :
    Secures moves origin home heads view (first >>= next) result holds' := by
  intro inside
  show Confined _ _ _ _ _ _ (first.toProgram.bind (ExceptT.bindCont next))
  refine (secures inside).bind fun view result' ends inside => ?_
  obtain ⟨rfl, held⟩ := ends
  exact goesOn view held inside

/-- One action after another that succeeds and leaves the view as it is. -/
theorem bind_same {first : Action α} {next : α → Action β} {value : α} {result : Except Failure β}
    (secures : Secures moves origin home heads view first (.ok value) (Eq view))
    (goesOn : Secures moves origin home heads view (next value) result holds) :
    Secures moves origin home heads view (first >>= next) result holds :=
  secures.bind fun _ same => same ▸ goesOn

/-- An action that fails ends what would follow it. -/
theorem bind_error {first : Action α} {next : α → Action β} {failure : Failure}
    (secures : Secures moves origin home heads view first (.error failure) holds) :
    Secures moves origin home heads view (first >>= next) (.error failure) holds := by
  intro inside
  show Confined _ _ _ _ _ _ (first.toProgram.bind (ExceptT.bindCont next))
  refine (secures inside).bind fun view result' ends inside => ?_
  obtain ⟨rfl, held⟩ := ends
  exact .done ⟨⟨rfl, held⟩, inside⟩

/-- A result that is known goes on at once. -/
theorem ofExcept_bind {value : α} {next : α → Action β} {result : Except Failure β}
    (goesOn : Secures moves origin home heads view (next value) result holds) :
    Secures moves origin home heads view (Attempt.ofExcept (.ok value) >>= next) result holds :=
  goesOn

/-- A call under the own names goes on with its answer. -/
theorem tryCall_bind {call : Disk.Call} {next : call.Answer → Action β} {result : Except Failure β}
    (acts : ∀ disk branch, Sees origin home heads view branch disk →
      ∃ answer view', (disk.answer call).1 = answer
        ∧ Becomes origin home heads branch view' (disk.answer call).2
        ∧ Relation.ReflGen (moves disk.nextIdentity) view view'
        ∧ Secures moves origin home heads view' (next answer) result holds) :
    Secures moves origin home heads view (Host.tryCall call >>= next) result holds := by
  intro inside
  choose answer after answers becomes moved goesOn using acts
  classical
  refine .ask (fun machine branch =>
      if sees : Sees origin home heads view branch machine.disk then after _ _ sees else view)
    (fun _ => ⟨rfl, rfl, rfl⟩) (fun machine branch sees => ?_) (fun machine branch sees => ?_)
    fun machine branch sees => ?_
  · rw [dif_pos sees]
    exact becomes _ _ sees
  · rw [dif_pos sees]
    exact moved _ _ sees
  · rw [dif_pos sees]
    obtain ⟨branch', sees', _⟩ := becomes _ _ sees
    have goes := goesOn _ _ sees sees'.inside
    rw [← answers _ _ sees] at goes
    exact goes

/-- A call that answers the same whatever happens elsewhere, and changes nothing. -/
theorem reads_bind {call : Disk.Call} {next : call.Answer → Action β} {answer : call.Answer}
    {result : Except Failure β}
    (answers : ∀ disk branch, Sees origin home heads view branch disk →
      disk.answer call = (answer, disk))
    (goesOn : Secures moves origin home heads view (next answer) result holds) :
    Secures moves origin home heads view (Host.tryCall call >>= next) result holds :=
  tryCall_bind fun disk branch sees => ⟨answer, view, by rw [answers disk branch sees], by
    rw [answers disk branch sees]
    exact sees.becomes, .refl, goesOn⟩

/-- A call that has to succeed, and does. -/
theorem callAs {call : Disk.Call} {failure : Disk.Errno → Failure} {value : call.Result}
    {view' : Branch} (held : holds view') (moved : ∀ given, Relation.ReflGen (moves given) view view')
    (acts : ∀ disk branch, Sees origin home heads view branch disk →
      (disk.answer call).1 = .ok value
        ∧ Becomes origin home heads branch view' (disk.answer call).2) :
    Secures moves origin home heads view (Host.callAs call failure) (.ok value) holds := by
  intro inside
  refine .ask (fun _ _ => view') (fun _ => ⟨rfl, rfl, rfl⟩)
    (fun machine branch sees => (acts _ _ sees).2) (fun _ _ _ => moved _)
    fun machine branch sees => ?_
  obtain ⟨branch', sees', _⟩ := (acts _ _ sees).2
  refine .done ⟨⟨?_, held⟩, sees'.inside⟩
  show Except.mapError failure (machine.disk.answer call).1 = _
  rw [(acts _ _ sees).1]
  rfl

/-- A fresh name for which nothing is claimed. -/
theorem freshName_bind {next : String → Action β} {result : Except Failure β}
    (goesOn : ∀ number,
      Secures moves origin home heads view (next (Machine.freshName number)) result holds) :
    Secures moves origin home heads view (Host.ask .freshName >>= next) result holds :=
  fun inside => .ask (fun _ _ => view) (fun _ => ⟨rfl, rfl, rfl⟩)
    (fun _ _ sees => sees.becomes) (fun _ _ _ => .refl) fun machine _ _ =>
      goesOn machine.names inside

/-- A fresh name with which the hidden names that are made of it are claimed.  At the end nothing
may be left under them. -/
theorem marks_bind {next : String → Action β} {result : Except Failure β}
    (goesOn : ∀ number, Secures moves origin home (heads ∪ marked number) view
      (next (Machine.freshName number)) result holds)
    (leaves : ∀ number view, holds view → view.Inside (heads ∪ marked number) →
      view.Inside heads) :
    Secures moves origin home heads view (Host.ask .freshName >>= next) result holds := by
  refine fun inside => .freshName fun number => ?_
  refine (goesOn number fun names notOwn => inside names fun own =>
    notOwn (own.mono Set.subset_union_left)).mono fun view result ends => ?_
  exact ⟨ends.1, leaves number view ends.1.2 ends.2⟩

theorem outcome {action : Action α} {result : Except Failure α}
    (secures : Secures moves origin home heads view action result holds) :
    Secures moves origin home heads view action.outcome (.ok result) holds := by
  intro inside
  refine Confined.bind (secures inside) fun view result' ends inside => ?_
  obtain ⟨rfl, held⟩ := ends
  exact .done ⟨⟨rfl, held⟩, inside⟩

theorem andFinally {action : Action α} {last : Action Unit} {result : Except Failure α}
    (secures : Secures moves origin home heads view action result holds)
    (ends : ∀ view, holds view → Secures moves origin home heads view last (.ok ()) holds') :
    Secures moves origin home heads view (action.andFinally last) result holds' := by
  intro inside
  refine Confined.bind (secures inside) fun view result' ended inside => ?_
  obtain ⟨rfl, held⟩ := ended
  refine Confined.bind (ends view held inside) fun view result' ended inside => ?_
  obtain ⟨rfl, held⟩ := ended
  exact .done ⟨⟨rfl, held⟩, inside⟩

/-- What is read for each element of a list. -/
theorem forEach {ι : Type} {list : List ι} {values : List α} {action : ι → Action α}
    (each : List.Forall₂ (fun element value =>
      Secures moves origin home heads view (action element) (.ok value) (Eq view)) list values) :
    Secures moves origin home heads view (Attempt.forEach list action) (.ok values) (Eq view) := by
  induction each with
  | nil => exact pure [] rfl
  | cons first _ ih => exact bind_same first (bind_same ih (pure _ rfl))

/-- What an action comes to when nobody else is about. -/
theorem yields {action : Action α} {result : Except Failure α}
    (secures : Secures moves origin home Set.univ view action result holds) {machine : Machine}
    (shows : Shows origin home view machine.disk) :
    Yields origin home action machine result holds := by
  obtain ⟨view', same, shows', ends⟩ := (secures shows.sees.inside).run shows
  exact ⟨_, view', Prod.ext ends.1.1 rfl, same, shows', ends.1.2⟩

/-- What an action tells when nobody else is about. -/
theorem attempt_eq {action : Action α} {result : Except Failure α}
    (secures : Secures moves origin home Set.univ view action result holds) {machine : Machine}
    (shows : Shows origin home view machine.disk) : (machine.attempt action).1 = result := by
  obtain ⟨_, _, told, _⟩ := secures.yields shows
  exact congrArg Prod.fst told

end Secures

end DocStore.Host
