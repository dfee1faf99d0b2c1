import DocStore.Proofs.Storage.Keeper
import Mathlib.Data.Set.Function
/-!
# The same collections in other slots

What one storage keeps under the keys themselves another one keeps in slots that the keys are given
(`Cabinet.rekey`).  As long as the keys that are used have slots of their own, finding, putting and
removing entries do the same in both: each operation on a collection commutes with `rekey`.
-/

set_option autoImplicit false

namespace DocStore

variable {β : Type} {slot : String → String} {keys : Set String}

namespace Content

/-- Entries in the slots of their keys. -/
def rekey (slot : String → String) (entries : List (String × β)) : List (String × β) :=
  entries.map fun entry => (slot entry.1, entry.2)

theorem map_snd_rekey (entries : List (String × β)) :
    (rekey slot entries).map Prod.snd = entries.map Prod.snd := by
  rw [rekey, List.map_map]
  rfl

section

variable (apart : Set.InjOn slot keys) {key : String} (inKeys : key ∈ keys)
  {entries : List (String × β)} (within : ∀ entry ∈ entries, entry.1 ∈ keys)
include apart inKeys within

theorem lookup_rekey : (rekey slot entries).lookup (slot key) = entries.lookup key := by
  induction entries with
  | nil => rfl
  | cons entry rest ih =>
      obtain ⟨head, value⟩ := entry
      have later := ih fun other member => within other (List.mem_cons_of_mem _ member)
      rw [rekey, List.map_cons, List.lookup_cons, List.lookup_cons]
      by_cases same : key = head
      · rw [same, beq_self_eq_true, beq_self_eq_true]
      · have differ : slot key ≠ slot head := fun same' =>
          same (apart inKeys (within (head, value) List.mem_cons_self) same')
        rw [beq_eq_false_iff_ne.mpr same, beq_eq_false_iff_ne.mpr differ]
        exact later

theorem put_rekey (value : β) :
    Content.json.put (slot key) value (rekey slot entries)
      = rekey slot (Content.json.put key value entries) := by
  induction entries with
  | nil => rfl
  | cons entry rest ih =>
      obtain ⟨head, old⟩ := entry
      have later := ih fun other member => within other (List.mem_cons_of_mem _ member)
      rw [rekey, List.map_cons, put, put]
      by_cases same : head = key
      · subst same
        simp [Content.same, rekey]
      · have differ : slot head ≠ slot key := fun same' =>
          same (apart (within (head, old) List.mem_cons_self) inKeys same')
        simp only [Content.same, beq_eq_false_iff_ne.mpr same, beq_eq_false_iff_ne.mpr differ,
          Bool.false_eq_true, if_false]
        exact congrArg ((slot head, old) :: ·) later

end

/-- Leaving out some keys is leaving out their slots. -/
theorem filter_rekey (apart : Set.InjOn slot keys) {gone : List String}
    (inKeys : ∀ key ∈ gone, key ∈ keys) {entries : List (String × β)}
    (within : ∀ entry ∈ entries, entry.1 ∈ keys) :
    ((rekey slot entries).filter fun entry => !(gone.map slot).contains entry.1)
      = rekey slot (entries.filter fun entry => !gone.contains entry.1) := by
  rw [rekey, List.filter_map]
  refine congrArg _ (List.filter_congr fun entry member => ?_)
  have same : slot entry.1 ∈ gone.map slot ↔ entry.1 ∈ gone := by
    refine ⟨fun found => ?_, List.mem_map_of_mem⟩
    obtain ⟨key, isGone, isSlot⟩ := List.mem_map.mp found
    rwa [← apart (inKeys key isGone) (within entry member) isSlot]
  rw [Function.comp, Bool.eq_iff_iff, Bool.not_eq_true', Bool.not_eq_true',
    ← Bool.not_eq_true, ← Bool.not_eq_true, List.contains_iff_mem, List.contains_iff_mem, same]

theorem remove_eq_filter (key : String) (entries : List (String × β)) :
    Content.json.remove key entries = entries.filter fun entry => !(List.contains [key] entry.1) :=
  List.filter_congr fun entry _ => by simp [same, beq_eq_decide]

end Content

namespace Drawer

/-- A collection with everything in the slots of its keys. -/
def rekey (slot : String → String) (drawer : Drawer) : Drawer :=
  ⟨Content.rekey slot drawer.documents, Content.rekey slot drawer.checks⟩

/-- The keys of a collection are among some keys. -/
structure Within (keys : Set String) (drawer : Drawer) : Prop where
  documents : ∀ entry ∈ drawer.documents, entry.1 ∈ keys
  checks : ∀ entry ∈ drawer.checks, entry.1 ∈ keys

variable {drawer : Drawer}

theorem within_empty : Within keys ⟨[], []⟩ :=
  ⟨fun _ member => (nomatch member), fun _ member => (nomatch member)⟩

theorem mem_put {key : String} {value : β} {entries : List (String × β)} {entry : String × β}
    (member : entry ∈ Content.json.put key value entries) :
    entry.1 = key ∨ entry ∈ entries := by
  induction entries with
  | nil => exact .inl (congrArg Prod.fst (List.mem_singleton.mp member))
  | cons head rest ih =>
      rw [Content.put] at member
      split at member
      next isHead =>
        have sameKey : head.1 = key := by simpa [Content.same] using isHead
        rcases List.mem_cons.mp member with rfl | member
        · exact .inl sameKey
        · exact .inr (List.mem_cons_of_mem _ member)
      next =>
        rcases List.mem_cons.mp member with rfl | member
        · exact .inr List.mem_cons_self
        · exact (ih member).imp_right (List.mem_cons_of_mem _)

section

variable (within : drawer.Within keys)
include within

theorem Within.putAt {key : String} (inKeys : key ∈ keys) (document : Json) :
    (drawer.putAt key document).Within keys where
  documents entry member := by
    rcases mem_put member with rfl | member
    · exact inKeys
    · exact within.documents entry member
  checks := within.checks

theorem Within.putCheckAt {key : String} (inKeys : key ∈ keys) (check : Constraint) :
    (drawer.putCheckAt key check).Within keys where
  documents := within.documents
  checks entry member := by
    rcases mem_put member with rfl | member
    · exact inKeys
    · exact within.checks entry member

theorem Within.withoutFiles (gone : List String) : (drawer.withoutFiles gone).Within keys where
  documents entry member := within.documents entry (List.mem_of_mem_filter member)
  checks := within.checks

theorem Within.withoutCheck (key : String) : (drawer.withoutCheck key).Within keys where
  documents := within.documents
  checks entry member := within.checks entry (List.mem_of_mem_filter member)

variable (apart : Set.InjOn slot keys)
include apart

theorem rekey_putAt {key : String} (inKeys : key ∈ keys) (document : Json) :
    (drawer.putAt key document).rekey slot = (drawer.rekey slot).putAt (slot key) document := by
  rw [rekey, putAt, putAt, rekey, ← Content.put_rekey apart inKeys within.documents]

theorem rekey_putCheckAt {key : String} (inKeys : key ∈ keys) (check : Constraint) :
    (drawer.putCheckAt key check).rekey slot
      = (drawer.rekey slot).putCheckAt (slot key) check := by
  rw [rekey, putCheckAt, putCheckAt, rekey, ← Content.put_rekey apart inKeys within.checks]

theorem rekey_withoutFiles {gone : List String} (inKeys : ∀ key ∈ gone, key ∈ keys) :
    (drawer.withoutFiles gone).rekey slot
      = (drawer.rekey slot).withoutFiles (gone.map slot) := by
  rw [rekey, withoutFiles, withoutFiles, rekey, Content.filter_rekey apart inKeys within.documents]

theorem rekey_withoutCheck {key : String} (inKeys : key ∈ keys) :
    (drawer.withoutCheck key).rekey slot = (drawer.rekey slot).withoutCheck (slot key) := by
  have alone : ∀ other ∈ [key], other ∈ keys := by simpa using inKeys
  rw [rekey, withoutCheck, withoutCheck, rekey, Content.remove_eq_filter, Content.remove_eq_filter,
    ← Content.filter_rekey apart alone within.checks]
  rfl

end

end Drawer

namespace Cabinet

/-- A cabinet with everything in the slots of its keys. -/
def rekey (slot : String → String) (cabinet : Cabinet) : Cabinet :=
  ⟨cabinet.collections.map fun entry => (entry.1, Drawer.rekey slot entry.2)⟩

/-- The keys of all collections are among some keys. -/
def Within (keys : Set String) (cabinet : Cabinet) : Prop :=
  ∀ name, (cabinet.held name).Within keys

variable (cabinet : Cabinet) {name : String}

theorem drawer?_rekey (slot : String → String) (name : String) :
    (cabinet.rekey slot).drawer? name = (cabinet.drawer? name).map (Drawer.rekey slot) :=
  Lookup.lookup_map (Drawer.rekey slot) cabinet.collections name

theorem held_rekey (slot : String → String) (name : String) :
    (cabinet.rekey slot).held name = (cabinet.held name).rekey slot := by
  rw [held, drawer?_rekey, held]
  cases cabinet.drawer? name <;> rfl

/-- Constraints do not depend on their slots. -/
theorem active_rekey (slot : String → String) (name : String) :
    (cabinet.rekey slot).active name = cabinet.active name := by
  rw [active, held_rekey, active]
  exact congrArg _ (Content.map_snd_rekey _)

theorem names_rekey (slot : String → String) :
    (cabinet.rekey slot).collections.map Prod.fst = cabinet.collections.map Prod.fst :=
  Lookup.map_fst_map _ _

theorem putDrawer_rekey (slot : String → String) (name : String) (drawer : Drawer) :
    (cabinet.putDrawer name drawer).rekey slot
      = (cabinet.rekey slot).putDrawer name (drawer.rekey slot) :=
  congrArg Memory.mk (Content.map_put name drawer cabinet.collections (Drawer.rekey slot))

theorem withoutDrawer_rekey (slot : String → String) (name : String) :
    (cabinet.withoutDrawer name).rekey slot = (cabinet.rekey slot).withoutDrawer name :=
  congrArg Memory.mk (Content.map_remove name cabinet.collections (Drawer.rekey slot))

theorem opened_rekey (slot : String → String) (name : String) :
    (cabinet.opened name).rekey slot = (cabinet.rekey slot).opened name := by
  rw [opened, opened, drawer?_rekey]
  cases cabinet.drawer? name with
  | none => exact putDrawer_rekey cabinet slot name ⟨[], []⟩
  | some drawer => rfl

variable {cabinet}

/-- Changes of a collection that correspond lead to corresponding cabinets. -/
theorem modify_rekey {change change' : Drawer → Drawer}
    (corresponds : (change (cabinet.held name)).rekey slot
      = change' ((cabinet.held name).rekey slot)) :
    (cabinet.modify name change).rekey slot = (cabinet.rekey slot).modify name change' := by
  rw [modify, modify, drawer?_rekey]
  cases there : cabinet.drawer? name with
  | none => rfl
  | some drawer =>
      rw [held_eq there] at corresponds
      rw [Option.map_some]
      exact (putDrawer_rekey cabinet slot name (change drawer)).trans (by rw [corresponds])

theorem within_empty : Within keys Memory.empty := fun _ => Drawer.within_empty

section

variable (within : cabinet.Within keys)
include within

theorem Within.opened (name : String) : (cabinet.opened name).Within keys := by
  intro other
  rw [held_opened]
  exact within other

theorem Within.withoutDrawer (name : String) : (cabinet.withoutDrawer name).Within keys := by
  intro other
  rw [held, drawer?_withoutDrawer]
  split
  · exact Drawer.within_empty
  · exact within other

theorem Within.modify {change : Drawer → Drawer}
    (each : (cabinet.held name).Within keys → (change (cabinet.held name)).Within keys) :
    (cabinet.modify name change).Within keys := by
  cases there : cabinet.drawer? name with
  | none =>
      rw [Keeper.modify_of_missing there]
      exact within
  | some drawer =>
      intro other
      rw [held_modify (by rw [there]; rfl)]
      split
      · exact each (within name)
      · exact within other

end

end Cabinet

end DocStore
