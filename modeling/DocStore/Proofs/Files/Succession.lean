import DocStore.Proofs.Files.Protocol
/-!
# Turns at a lock

Programs that have obtained the lock of a collection have done so one after another
(`Succession`): each has found in the collection what the one before it has left, and has called the
identifier generator after it.  The last of them may still hold the lock, and then what is kept is
what it has found.  `Succession.takes`, `Succession.draws` and `Succession.releases` follow the
holder from its turn to its end.

`Roll` says so of all collections at once, with a list of the programs in the order in which they
have obtained a lock.
-/

set_option autoImplicit false

namespace DocStore

/-- Some numbers rise from one bound to another. -/
structure Rises (numbers : List Nat) (low high : Nat) : Prop where
  bounds : low ≤ high
  rises : numbers.Pairwise (· < ·)
  within : ∀ number ∈ numbers, low ≤ number ∧ number < high

namespace Rises

variable {numbers : List Nat} {low high : Nat}

theorem nil (bounds : low ≤ high) : Rises [] low high :=
  ⟨bounds, .nil, fun _ member => nomatch member⟩

theorem later (rises : Rises numbers low high) {high' : Nat} (later : high ≤ high') :
    Rises numbers low high' :=
  ⟨Nat.le_trans rises.bounds later, rises.rises, fun number member =>
    ⟨(rises.within number member).1, Nat.lt_of_lt_of_le (rises.within number member).2 later⟩⟩

theorem append {others : List Nat} {middle : Nat} (first : Rises numbers low middle)
    (second : Rises others middle high) : Rises (numbers ++ others) low high where
  bounds := Nat.le_trans first.bounds second.bounds
  rises := List.pairwise_append.mpr ⟨first.rises, second.rises, fun number member other member' =>
    Nat.lt_of_lt_of_le (first.within number member).2 (second.within other member').1⟩
  within number member := by
    rcases List.mem_append.mp member with member | member
    · exact (first.later second.bounds).within number member
    · exact ⟨Nat.le_trans first.bounds (second.within number member).1,
        (second.within number member).2⟩

theorem concat (rises : Rises numbers low high) : Rises (numbers ++ [high]) low (high + 1) :=
  rises.append ⟨Nat.le_succ high, List.pairwise_singleton _ _, fun number member => by
    rw [List.mem_singleton.mp member]
    exact ⟨Nat.le_refl high, Nat.lt_succ_self high⟩⟩

end Rises

/-- Programs have had the lock of a collection one after another, from what was kept there at first
to what is kept there now, and from one call of the identifier generator to another. -/
inductive Succession (stages : Nat → Stage) (name : String) :
    Option Drawer → Nat → List Nat → Option Drawer → Nat → Prop
  | none {drawer : Option Drawer} {calls calls' : Nat} (later : calls ≤ calls') :
      Succession stages name drawer calls [] drawer calls'
  | holding {drawer : Option Drawer} {calls calls' : Nat} {place : Nat} {tenure : Tenure}
      (isHolding : stages place = .holding tenure) (found : tenure.before.drawer? name = drawer)
      (rises : Rises tenure.drawn calls calls') :
      Succession stages name drawer calls [place] drawer calls'
  | past {drawer drawer' : Option Drawer} {calls middle calls' : Nat} {place : Nat}
      {places : List Nat} {before after : Cabinet} {drawn : List Nat}
      (isPast : stages place = .past before drawn after) (found : before.drawer? name = drawer)
      (rises : Rises drawn calls middle)
      (others : Succession stages name (after.drawer? name) middle places drawer' calls') :
      Succession stages name drawer calls (place :: places) drawer' calls'

namespace Succession

variable {stages : Nat → Stage} {name : String} {drawer drawer' : Option Drawer}
  {calls calls' : Nat} {places : List Nat}
  (succession : Succession stages name drawer calls places drawer' calls')
include succession

theorem later {calls'' : Nat} (later : calls' ≤ calls'') :
    Succession stages name drawer calls places drawer' calls'' := by
  induction succession with
  | none before => exact .none (Nat.le_trans before later)
  | holding isHolding found rises => exact .holding isHolding found (rises.later later)
  | past isPast found rises _ ih => exact .past isPast found rises (ih later)

theorem congr {stages' : Nat → Stage} (same : ∀ place ∈ places, stages' place = stages place) :
    Succession stages' name drawer calls places drawer' calls' := by
  induction succession with
  | none later => exact .none later
  | holding isHolding found rises =>
      exact .holding ((same _ (List.mem_singleton_self _)).trans isHolding) found rises
  | past isPast found rises _ ih =>
      exact .past ((same _ List.mem_cons_self).trans isPast) found rises
        (ih fun other member => same other (List.mem_cons_of_mem _ member))

/-- A program obtains a lock that nobody holds. -/
theorem takes {place : Nat} (isNew : place ∉ places)
    (nobody : ∀ other ∈ places, ∀ tenure, stages other ≠ .holding tenure) {tenure : Tenure}
    (found : tenure.before.drawer? name = drawer') (nothing : tenure.drawn = []) :
    Succession (Function.update stages place (.holding tenure)) name drawer calls (places ++ [place])
      drawer' calls' := by
  induction succession with
  | none later =>
      exact .holding (Function.update_self ..) found (by rw [nothing]; exact .nil later)
  | holding isHolding =>
      exact absurd isHolding (nobody _ (List.mem_singleton_self _) _)
  | past isPast found' rises _ ih =>
      refine .past ((Function.update_of_ne ?_ ..).trans isPast) found' rises
        (ih (fun member => isNew (List.mem_cons_of_mem _ member))
          (fun other member => nobody other (List.mem_cons_of_mem _ member)) found)
      rintro rfl
      exact isNew List.mem_cons_self

section

variable {place : Nat} {tenure : Tenure} (isHolding : stages place = .holding tenure)
  (member : place ∈ places)
include isHolding member

/-- The holder goes on, and perhaps calls the identifier generator. -/
theorem draws {tenure' : Tenure} {calls'' : Nat} (same : tenure'.before = tenure.before)
    (rises : ∀ low, Rises tenure.drawn low calls' → Rises tenure'.drawn low calls'') :
    Succession (Function.update stages place (.holding tenure')) name drawer calls places drawer'
      calls'' := by
  induction succession with
  | none => cases member
  | holding isHolding' found rises' =>
      obtain rfl := List.mem_singleton.mp member
      obtain rfl := Stage.holding.inj (isHolding.symm.trans isHolding')
      exact .holding (Function.update_self ..) (same ▸ found) (rises _ rises')
  | @past _ _ _ _ _ other _ _ _ _ isPast found rises' _ ih =>
      have differ : other ≠ place := by
        rintro rfl
        cases isHolding.symm.trans isPast
      exact .past ((Function.update_of_ne differ ..).trans isPast) found rises'
        (ih ((List.mem_cons.mp member).resolve_left (Ne.symm differ)) rises)

/-- The holder gives the lock back. -/
theorem releases (after : Cabinet) :
    Succession (Function.update stages place (.past tenure.before tenure.drawn after)) name drawer calls
      places (after.drawer? name) calls' := by
  induction succession with
  | none => cases member
  | holding isHolding' found rises =>
      obtain rfl := List.mem_singleton.mp member
      obtain rfl := Stage.holding.inj (isHolding.symm.trans isHolding')
      exact .past (Function.update_self ..) found rises (.none (Nat.le_refl _))
  | @past _ _ _ _ _ other _ _ _ _ isPast found rises' _ ih =>
      have differ : other ≠ place := by
        rintro rfl
        cases isHolding.symm.trans isPast
      exact .past ((Function.update_of_ne differ ..).trans isPast) found rises'
        (ih ((List.mem_cons.mp member).resolve_left (Ne.symm differ)))

end

end Succession

/-! ## All collections -/

/-- A stage of a program that has obtained the lock. -/
def Stage.Entered : Stage → Prop
  | .outside | .waiting _ => False
  | .holding _ | .past _ _ _ => True

/-- Who has obtained a lock, in which order, and what has come of it: what is kept in each
collection is what those leave there who have obtained its lock. -/
structure Roll (name : Nat → String) (stages : Nat → Stage) (taken : List Nat) (kept : Cabinet)
    (first calls : Nat) : Prop where
  once : taken.Nodup
  entered : ∀ place, place ∈ taken ↔ (stages place).Entered
  refused : ∀ place, stages place = .waiting true → ∃ other ∈ taken, name other = name place
  succession : ∀ collection, Succession stages collection none first
    (taken.filter fun place => name place = collection) (kept.drawer? collection) calls

namespace Roll

variable {name : Nat → String} {stages : Nat → Stage} {taken : List Nat} {kept : Cabinet}
  {first calls : Nat}

theorem start (name : Nat → String) (calls : Nat) :
    Roll name (fun _ => .outside) [] Memory.empty calls calls where
  once := .nil
  entered _ := iff_of_false List.not_mem_nil fun entered => entered
  refused _ waits := nomatch waits
  succession _ := .none (Nat.le_refl calls)

variable (roll : Roll name stages taken kept first calls)
include roll

/-- A program goes on that has not obtained its lock. -/
theorem waits {place : Nat} (outside : ¬ (stages place).Entered) {stage : Stage}
    (outside' : ¬ stage.Entered)
    (refusal : stage = .waiting true → ∃ other ∈ taken, name other = name place) :
    Roll name (Function.update stages place stage) taken kept first calls where
  once := roll.once
  entered other := by
    rw [Function.update_apply]
    split
    next same => simp only [same, roll.entered, outside, outside']
    next => exact roll.entered other
  refused other waits := by
    by_cases same : other = place
    · rw [same] at waits ⊢
      exact refusal ((Function.update_self ..).symm.trans waits)
    · rw [Function.update_of_ne same] at waits
      exact roll.refused other waits
  succession collection := by
    refine (roll.succession collection).congr fun other member => Function.update_of_ne ?_ ..
    rintro rfl
    exact outside ((roll.entered other).mp (List.mem_filter.mp member).1)

/-- A program obtains its lock. -/
theorem takes {place : Nat} (outside : ¬ (stages place).Entered)
    (nobody : ∀ other tenure, stages other = .holding tenure → name other ≠ name place)
    {tenure : Tenure} (nothing : tenure.drawn = [])
    (found : tenure.before.drawer? (name place) = kept.drawer? (name place)) :
    Roll name (Function.update stages place (.holding tenure)) (taken ++ [place]) kept first
      calls where
  once := by
    refine List.nodup_append.mpr ⟨roll.once, List.nodup_singleton place, fun other member _ same => ?_⟩
    rintro rfl
    exact outside ((roll.entered place).mp (List.mem_singleton.mp same ▸ member))
  entered other := by
    rw [List.mem_append, List.mem_singleton, Function.update_apply]
    split
    next same => simp [same, Stage.Entered]
    next differ => simp [roll.entered other, differ]
  refused other waits := by
    by_cases same : other = place
    · rw [same, Function.update_self] at waits
      cases waits
    · rw [Function.update_of_ne same] at waits
      obtain ⟨earlier, member, sameName⟩ := roll.refused other waits
      exact ⟨earlier, List.mem_append_left _ member, sameName⟩
  succession collection := by
    have isNew : place ∉ taken.filter fun place => name place = collection := fun member =>
      outside ((roll.entered place).mp (List.mem_filter.mp member).1)
    rw [List.filter_append]
    by_cases own : name place = collection
    · subst own
      rw [List.filter_cons_of_pos (by simp), List.filter_nil]
      refine (roll.succession (name place)).takes isNew (fun other member tenure isHolding => ?_) found
        nothing
      exact nobody other tenure isHolding (by simpa using (List.mem_filter.mp member).2)
    · rw [List.filter_cons_of_neg (by simpa using own), List.filter_nil, List.append_nil]
      refine (roll.succession collection).congr fun other member => Function.update_of_ne ?_ ..
      rintro rfl
      exact isNew member

section

variable {place : Nat} {tenure : Tenure} (isHolding : stages place = .holding tenure)
include isHolding

theorem mem_taken : place ∈ taken := by
  rw [roll.entered, isHolding]
  trivial

/-- A holder is at another stage at which it has obtained the lock. -/
theorem goesOn {stage : Stage} (entered : stage.Entered) {kept' : Cabinet} {calls' : Nat}
    (later : calls ≤ calls')
    (elsewhere : ∀ collection, collection ≠ name place →
      kept'.drawer? collection = kept.drawer? collection)
    (succession : place ∈ taken.filter (fun other => name other = name place) →
      Succession (Function.update stages place stage) (name place) none first
        (taken.filter fun other => name other = name place) (kept'.drawer? (name place)) calls') :
    Roll name (Function.update stages place stage) taken kept' first calls' where
  once := roll.once
  entered other := by
    rw [Function.update_apply]
    split
    next same =>
      rw [same]
      exact ⟨fun _ => entered, fun _ => roll.mem_taken isHolding⟩
    next => exact roll.entered other
  refused other waits := by
    by_cases same : other = place
    · rw [same, Function.update_self] at waits
      rw [waits] at entered
      exact entered.elim
    · rw [Function.update_of_ne same] at waits
      exact roll.refused other waits
  succession collection := by
    by_cases own : collection = name place
    · subst own
      exact succession (List.mem_filter.mpr ⟨roll.mem_taken isHolding, by simp⟩)
    · rw [elsewhere collection own]
      refine ((roll.succession collection).later later).congr fun other member =>
        Function.update_of_ne ?_ ..
      rintro rfl
      exact own (of_decide_eq_true (List.mem_filter.mp member).2).symm

/-- A holder goes on, and perhaps calls the identifier generator. -/
theorem draws {tenure' : Tenure} {calls' : Nat} (later : calls ≤ calls')
    (same : tenure'.before = tenure.before)
    (rises : ∀ low, Rises tenure.drawn low calls → Rises tenure'.drawn low calls') :
    Roll name (Function.update stages place (.holding tenure')) taken kept first calls' :=
  roll.goesOn isHolding (show Stage.Entered (.holding tenure') from trivial) later
    (fun _ _ => rfl) fun member =>
    (roll.succession (name place)).draws isHolding member same rises

/-- A holder gives its lock back. -/
theorem releases (after : Cabinet) :
    Roll name (Function.update stages place (.past tenure.before tenure.drawn after)) taken
      (kept.setDrawer (name place) (after.drawer? (name place))) first calls := by
  have entered : Stage.Entered (.past tenure.before tenure.drawn after) := trivial
  refine roll.goesOn isHolding entered (Nat.le_refl calls) (fun collection differ => ?_)
    fun member => ?_
  · rw [Cabinet.drawer?_setDrawer, if_neg differ]
  · rw [Cabinet.drawer?_setDrawer, if_pos rfl]
    exact (roll.succession (name place)).releases isHolding member after

end

end Roll

end DocStore
