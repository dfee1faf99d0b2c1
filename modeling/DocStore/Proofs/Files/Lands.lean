import DocStore.Proofs.Files.Protocol
/-!
# Lands below a root

What lies below a root is divided (`Lands`): each program that holds a lock owns a land, which are
the collection of its name and the hidden names that it has claimed; every other name is free, and
what lies there is in order and is what is kept.  The division lasts while programs do what they
may do: a holder changes its land (`Lands.acts`), claims hidden names of a fresh name
(`Lands.claims`) and gives the land back (`Lands.releases`), and a free collection is taken
(`Lands.takes`).
-/

set_option autoImplicit false

namespace DocStore

open Disk (Branch Becomes Place Sees Shows Under)
open Files (Named isHidden)
open Host (Machine marked)

/-- What lies under a first name is in order, and is what is kept under the name. -/
def Rested (setting : Setting) (kept : Cabinet) (head : String) (branch : Branch) (disk : Disk) :
    Prop :=
  ∃ cabinet view, Sees setting.origin setting.home {head} view branch disk
    ∧ Keeps setting.layouts cabinet (fun _ => none) view ∧ cabinet.drawer? head = kept.drawer? head

/-- A program owns a land: the collection of a name, and hidden names of fresh names that have been
made. -/
structure Owns (setting : Setting) (name : String) (names : Nat) (land : Land) (branch : Branch)
    (disk : Disk) : Prop where
  named : Named name
  own : name ∈ land.heads
  heads : ∀ head ∈ land.heads, head = name ∨ ∃ number < names, head ∈ marked number
  sees : Sees setting.origin setting.home land.heads land.view branch disk

/-- What lies below a root is divided among programs, each at its place. -/
structure Lands (setting : Setting) (name : Nat → String) (lands : Nat → Option Land)
    (kept : Cabinet) (names : Nat) (branch : Branch) (disk : Disk) : Prop where
  orderly : kept.Orderly
  owns : ∀ place land, lands place = some land →
    Owns setting (name place) names land branch disk
  apart : ∀ place other land land', lands place = some land → lands other = some land' →
    place ≠ other → ∀ head ∈ land.heads, head ∉ land'.heads
  free : ∀ head, head ≠ lockDirectory → (∀ place land, lands place = some land →
    head ∉ land.heads) → Rested setting kept head branch disk

/-- Hidden names of different fresh names are different. -/
theorem not_mem_marked {first second : Nat} (few : first < Nat.pow 10 Machine.freshNameLength)
    (few' : second < Nat.pow 10 Machine.freshNameLength) (differ : first ≠ second) {head : String}
    (isFirst : head ∈ marked first) : head ∉ marked second := by
  have differs {mark : String} :
      mark ++ Machine.freshName first ≠ mark ++ Machine.freshName second := fun same =>
    differ (Files.freshName_inj few few' ((String.append_right_inj mark).mp same))
  rcases isFirst with rfl | rfl <;> rintro (same | same)
  · exact differs same
  · exact Files.staging_ne_trash _ _ same
  · exact Files.staging_ne_trash _ _ same.symm
  · exact differs same

namespace Owns

variable {setting : Setting} {name : String} {names : Nat} {land : Land} {branch : Branch}
  {disk : Disk} (owns : Owns setting name names land branch disk)
include owns

theorem more {names' : Nat} (more : names ≤ names') :
    Owns setting name names' land branch disk where
  __ := owns
  heads head inside := (owns.heads head inside).imp_right fun isMarked =>
    isMarked.imp fun _ known => ⟨Nat.lt_of_lt_of_le known.1 more, known.2⟩

theorem ne_lockDirectory {head : String} (inside : head ∈ land.heads) : head ≠ lockDirectory := by
  rcases owns.heads head inside with rfl | ⟨number, _, isMarked⟩
  · exact owns.named.ne_lockDirectory
  · exact ne_lockDirectory_of_mem_marked isMarked

/-- The only name of a land that a collection can have is its own. -/
theorem eq_of_named {other : String} (named : Named other) (inside : other ∈ land.heads) :
    other = name := by
  refine (owns.heads other inside).resolve_right ?_
  rintro ⟨number, _, isMarked⟩
  have seen := named.seen
  rw [isHidden_of_mem_marked isMarked] at seen
  cases seen

/-- What changes elsewhere does not concern the owner. -/
theorem beside {heads : Set String} {view' branch' : Branch} {disk' : Disk}
    (changed : Sees setting.origin setting.home heads view' branch' disk')
    (unmoved : ∀ names, ¬ Under heads names → branch' names = branch names)
    (apart : ∀ head ∈ land.heads, head ∉ heads) : Owns setting name names land branch' disk' where
  __ := owns
  sees := owns.sees.beside changed unmoved apart

end Owns

theorem Rested.beside {setting : Setting} {kept : Cabinet} {head : String} {branch : Branch}
    {disk : Disk} (rested : Rested setting kept head branch disk) {heads : Set String}
    {view' branch' : Branch} {disk' : Disk}
    (changed : Sees setting.origin setting.home heads view' branch' disk')
    (unmoved : ∀ names, ¬ Under heads names → branch' names = branch names)
    (apart : head ∉ heads) : Rested setting kept head branch' disk' := by
  obtain ⟨cabinet, view, sees, keeps, same⟩ := rested
  exact ⟨cabinet, view, sees.beside changed unmoved fun other isHead =>
    Set.mem_singleton_iff.mp isHead ▸ apart, keeps, same⟩

/-- Nothing lies under a hidden name that is free. -/
theorem Rested.nothing {setting : Setting} {kept : Cabinet} {head : String} {branch : Branch}
    {disk : Disk} (rested : Rested setting kept head branch disk) (noLock : head ≠ lockDirectory)
    (hidden : isHidden head = true) (rest : List String) : branch (head :: rest) = none := by
  obtain ⟨cabinet, view, sees, keeps, _⟩ := rested
  rw [sees.same (head :: rest) (Set.mem_singleton head)]
  exact keeps.nothing_of_missing noLock (keeps.missing_of_hidden hidden) rest

namespace Lands

variable {setting : Setting} {name : Nat → String} {lands : Nat → Option Land} {kept : Cabinet}
  {names : Nat} {branch : Branch} {disk : Disk}

/-- A root that is empty yet is not divided. -/
theorem start (shows : Shows setting.origin setting.home (fun _ => none) disk)
    {layout : Json.Layout} (usual : layout ∈ setting.layouts) :
    Lands setting name (fun _ => none) Memory.empty names (fun _ => none) disk where
  orderly := Cabinet.slotted_empty
  owns _ _ isLand := nomatch isLand
  apart _ _ _ _ isLand := nomatch isLand
  free _ _ _ :=
    ⟨Memory.empty, fun _ => none, shows.sees_nothing fun _ _ => rfl, keeps_empty usual, rfl⟩

variable (divided : Lands setting name lands kept names branch disk)
include divided

theorem more {names' : Nat} (more : names ≤ names') :
    Lands setting name lands kept names' branch disk where
  __ := divided
  owns place land isLand := (divided.owns place land isLand).more more

/-- No two lands are those of the same collection. -/
theorem place_eq {place other : Nat} {land land' : Land} (isLand : lands place = some land)
    (isLand' : lands other = some land') (same : name other = name place) : other = place := by
  by_contra differ
  exact divided.apart other place land' land isLand' isLand differ (name other)
    (divided.owns other land' isLand').own (same ▸ (divided.owns place land isLand).own)

/-- What changes among the lock files concerns nobody's land. -/
theorem beside {view' branch' : Branch} {disk' : Disk}
    (changed : Sees setting.origin setting.home {lockDirectory} view' branch' disk')
    (unmoved : ∀ names, ¬ Under {lockDirectory} names → branch' names = branch names) :
    Lands setting name lands kept names branch' disk' where
  __ := divided
  owns place land isLand := by
    have owns := divided.owns place land isLand
    exact owns.beside changed unmoved fun head inside => owns.ne_lockDirectory inside
  free head noLock unclaimed := (divided.free head noLock unclaimed).beside changed unmoved noLock

/-- One program gets another land, while the others keep theirs. -/
theorem put {place : Nat} {land' : Land} {names' : Nat} {branch' : Branch} {disk' : Disk}
    (owns : Owns setting (name place) names' land' branch' disk')
    (others : ∀ other land, other ≠ place → lands other = some land →
      Owns setting (name other) names' land branch' disk' ∧ ∀ head ∈ land'.heads, head ∉ land.heads)
    (free : ∀ head, head ≠ lockDirectory → head ∉ land'.heads → (∀ other land, other ≠ place →
      lands other = some land → head ∉ land.heads) → Rested setting kept head branch' disk') :
    Lands setting name (Function.update lands place (some land')) kept names' branch' disk' := by
  have known {other : Nat} {land : Land}
      (isLand : Function.update lands place (some land') other = some land) :
      other = place ∧ land = land' ∨ other ≠ place ∧ lands other = some land := by
    rw [Function.update_apply] at isLand
    split at isLand
    next same => exact .inl ⟨same, (Option.some.inj isLand).symm⟩
    next differ => exact .inr ⟨differ, isLand⟩
  refine ⟨divided.orderly, fun other land isLand => ?_, ?_, fun head noLock unclaimed => ?_⟩
  · rcases known isLand with ⟨rfl, rfl⟩ | ⟨differ, isOther⟩
    · exact owns
    · exact (others other land differ isOther).1
  · intro first second land land' isLand isLand' differ head inside inside'
    rcases known isLand with ⟨rfl, rfl⟩ | ⟨differ', isFirst⟩ <;>
      rcases known isLand' with ⟨rfl, rfl⟩ | ⟨differ'', isSecond⟩
    · exact differ rfl
    · exact (others second land' differ'' isSecond).2 head inside inside'
    · exact (others first land differ' isFirst).2 head inside' inside
    · exact divided.apart first second land land' isFirst isSecond differ head inside inside'
  · refine free head noLock (unclaimed place land' (Function.update_self ..)) ?_
    intro other land differ isLand
    exact unclaimed other land ((Function.update_of_ne differ ..).trans isLand)

/-- While nobody has a land, what lies below the root is what is kept. -/
theorem keeps (nobody : ∀ place, lands place = none) :
    Keeps setting.layouts kept (fun names => branch (lockDirectory :: names)) branch where
  orderly := divided.orderly
  locked _ := rfl
  kept names noLock := by
    have rests {head : String} (other : head ≠ lockDirectory) :
        Rested setting kept head branch disk :=
      divided.free head other fun place land isLand => nomatch (nobody place).symm.trans isLand
    cases names with
    | nil =>
        have noLock : "docs" ≠ lockDirectory := by decide
        obtain ⟨_, _, sees, keeps, _⟩ := rests noLock
        obtain ⟨layout, usual⟩ := keeps.exists_layout
        refine ⟨layout, usual, ?_⟩
        rw [sees.shows.top]
        rfl
    | cons head rest =>
        have other : head ≠ lockDirectory := fun same => noLock (congrArg some same)
        obtain ⟨cabinet, view, sees, keeps, same⟩ := rests other
        obtain ⟨layout, usual, isNode⟩ := keeps.node_eq rest other
        refine ⟨layout, usual, ?_⟩
        rw [sees.same (head :: rest) (Set.mem_singleton head), isNode, Cabinet.node?, same,
          Cabinet.node?]

/-- A free collection is taken by a program that has no land yet. -/
theorem takes {place : Nat} (landless : lands place = none) (named : Named (name place))
    (others : ∀ other land, lands other = some land → name other ≠ name place) :
    ∃ cabinet view, Keeps setting.layouts cabinet (fun _ => none) view
      ∧ view.Inside {name place} ∧ cabinet.drawer? (name place) = kept.drawer? (name place)
      ∧ Lands setting name (Function.update lands place (some ⟨{name place}, view⟩)) kept names
        branch disk := by
  have unclaimed (other : Nat) (land : Land) (isLand : lands other = some land) :
      name place ∉ land.heads := fun inside =>
    others other land isLand ((divided.owns other land isLand).eq_of_named named inside).symm
  obtain ⟨cabinet, view, sees, keeps, same⟩ :=
    divided.free (name place) named.ne_lockDirectory unclaimed
  refine ⟨cabinet, view, keeps, sees.inside, same, divided.put ⟨named, Set.mem_singleton _,
    fun head inside => .inl inside, sees⟩ (fun other land differ isLand => ?_) ?_⟩
  · exact ⟨divided.owns other land isLand, fun head isName =>
      Set.mem_singleton_iff.mp isName ▸ unclaimed other land isLand⟩
  · intro head noLock _ unclaimed'
    refine divided.free head noLock fun other land isLand => unclaimed' other land ?_ isLand
    rintro rfl
    rw [landless] at isLand
    cases isLand

section

variable {place : Nat} {land : Land} (isLand : lands place = some land)
include isLand

/-- What neither the land at a place has nor any other land is at rest. -/
theorem rested {head : String} (noLock : head ≠ lockDirectory) (notOwn : head ∉ land.heads)
    (unclaimed : ∀ other land', other ≠ place → lands other = some land' → head ∉ land'.heads) :
    Rested setting kept head branch disk := by
  refine divided.free head noLock fun other land' isLand' => ?_
  by_cases same : other = place
  · subst same
    exact Option.some.inj (isLand.symm.trans isLand') ▸ notOwn
  · exact unclaimed other land' same isLand'

/-- The owner of a land changes it. -/
theorem acts {view' branch' : Branch} {disk' : Disk}
    (changed : Sees setting.origin setting.home land.heads view' branch' disk')
    (unmoved : ∀ names, ¬ Under land.heads names → branch' names = branch names) :
    Lands setting name (Function.update lands place (some { land with view := view' })) kept names
      branch' disk' := by
  refine divided.put { divided.owns place land isLand with sees := changed }
    (fun other land' differ isLand' => ?_) fun head noLock notOwn unclaimed => ?_
  · have apart := divided.apart other place land' land isLand' isLand differ
    exact ⟨(divided.owns other land' isLand').beside changed unmoved apart,
      fun head inside inside' => apart head inside' inside⟩
  · exact (divided.rested isLand noLock notOwn unclaimed).beside changed unmoved notOwn

/-- The owner of a land claims the hidden names of the next fresh name, which nobody else has
claimed. -/
theorem claims_apart (unclaimed : ∀ other land', other ≠ place → lands other = some land' →
      ∀ head ∈ marked names, head ∉ land'.heads) :
    Lands setting name
      (Function.update lands place (some { land with heads := land.heads ∪ marked names })) kept
      (names + 1) branch disk := by
  have owns := divided.owns place land isLand
  -- What has been claimed before, when names start over, need not be free.
  have sees : Sees setting.origin setting.home (land.heads ∪ marked names) land.view branch disk := by
    rw [← Set.union_sdiff_self]
    refine owns.sees.claim fun names' isMarked => ?_
    cases names' with
    | nil => exact isMarked.elim
    | cons head rest =>
        obtain ⟨isMarked, notOwn⟩ := isMarked
        have noLock := ne_lockDirectory_of_mem_marked isMarked
        have rested := divided.rested isLand noLock notOwn fun other land' differ isLand' =>
          unclaimed other land' differ isLand' head isMarked
        exact rested.nothing noLock (isHidden_of_mem_marked isMarked) rest
  refine divided.put ⟨owns.named, .inl owns.own, fun head inside => ?_, sees⟩
    (fun other land' differ isLand' => ⟨(divided.owns other land' isLand').more (Nat.le_succ _),
      fun head inside => ?_⟩) fun head noLock notOwn unclaimed' => ?_
  · rcases inside with inside | isMarked
    · exact (owns.more (Nat.le_succ _)).heads head inside
    · exact .inr ⟨names, Nat.lt_succ_self _, isMarked⟩
  · rcases inside with inside | isMarked
    · exact divided.apart place other land land' isLand isLand' (Ne.symm differ) head inside
    · exact unclaimed other land' differ isLand' head isMarked
  · exact divided.rested isLand noLock (fun inside => notOwn (.inl inside)) unclaimed'

/-- As long as fresh names do not start over, nobody else has claimed the next one. -/
theorem claims (few : names < Nat.pow 10 Machine.freshNameLength) :
    Lands setting name
      (Function.update lands place (some { land with heads := land.heads ∪ marked names })) kept
      (names + 1) branch disk := by
  refine divided.claims_apart isLand fun other land' _ isLand' head isMarked inside => ?_
  have owns := divided.owns other land' isLand'
  rcases owns.heads head inside with rfl | ⟨number, before, isMarked'⟩
  · have seen := owns.named.seen
    rw [isHidden_of_mem_marked isMarked] at seen
    cases seen
  · exact not_mem_marked few (Nat.lt_trans before few) (Nat.ne_of_gt before) isMarked isMarked'

/-- The owner of a land gives it back in order. -/
theorem releases {cabinet : Cabinet} (keeps : Keeps setting.layouts cabinet (fun _ => none) land.view)
    (inside : land.view.Inside {name place}) :
    Lands setting name (Function.update lands place none)
      (kept.setDrawer (name place) (cabinet.drawer? (name place))) names branch disk := by
  have owns := divided.owns place land isLand
  have known {other : Nat} {land' : Land}
      (isLand' : Function.update lands place none other = some land') :
      other ≠ place ∧ lands other = some land' := by
    rw [Function.update_apply] at isLand'
    split at isLand'
    · cases isLand'
    next differ => exact ⟨differ, isLand'⟩
  refine ⟨divided.orderly.setDrawer fun drawer there => ⟨owns.named, keeps.drawerOrderly there⟩,
    fun other land' isLand' => divided.owns other land' (known isLand').2,
    fun first second land' land'' isFirst isSecond =>
      divided.apart first second land' land'' (known isFirst).2 (known isSecond).2,
    fun head noLock unclaimed => ?_⟩
  by_cases own : head ∈ land.heads
  · by_cases isName : head = name place
    · subst isName
      refine ⟨cabinet, land.view, owns.sees.of_more (Set.singleton_subset_iff.mpr own) inside, keeps,
        ?_⟩
      rw [Cabinet.drawer?_setDrawer, if_pos rfl]
    · -- A hidden name that is given back has nothing under it.
      obtain ⟨number, _, isMarked⟩ := (owns.heads head own).resolve_left isName
      have nothing (names : List String) (isHead : Under {head} names) : branch names = none := by
        cases names with
        | nil => exact isHead.elim
        | cons first rest =>
            obtain rfl := Set.mem_singleton_iff.mp isHead
            rw [owns.sees.same (first :: rest) own]
            exact inside _ isName
      refine ⟨Memory.empty, fun _ => none, owns.sees.shows.sees_nothing nothing, ?_, ?_⟩
      · obtain ⟨layout, usual⟩ := keeps.exists_layout
        exact keeps_empty usual
      · rw [Cabinet.drawer?_setDrawer, if_neg isName]
        cases there : kept.drawer? head with
        | none => rfl
        | some drawer =>
            have seen := (divided.orderly.each head drawer there).1.seen
            rw [isHidden_of_mem_marked isMarked] at seen
            cases seen
  · obtain ⟨cabinet', view, sees, keeps', same⟩ :=
      divided.rested isLand noLock own fun other land' differ isLand' =>
        unclaimed other land' ((Function.update_of_ne differ ..).trans isLand')
    refine ⟨cabinet', view, sees, keeps', ?_⟩
    rw [Cabinet.drawer?_setDrawer, if_neg, same]
    rintro rfl
    exact own owns.own

end

end Lands

end DocStore
