/-!
# Looking up keys

A list of keys with values gives a key the value of its first entry.  When the keys are distinct
that is its only entry (`lookup_eq_some_iff`), so the order of the entries does not matter
(`lookup_eq_of_perm`).
-/

set_option autoImplicit false

namespace DocStore.Lookup

variable {κ β : Type} [BEq κ] [LawfulBEq κ]

/-- A key that is looked up successfully is the key of an entry. -/
theorem mem_of_lookup {entries : List (κ × β)} {key : κ} {value : β}
    (found : entries.lookup key = some value) : (key, value) ∈ entries := by
  obtain ⟨before, after, rfl, _⟩ := List.lookup_eq_some_iff.mp found
  simp

/-- With distinct keys a key has the value of its entry. -/
theorem lookup_eq_some_iff {entries : List (κ × β)} (distinct : (entries.map Prod.fst).Nodup)
    {key : κ} {value : β} : entries.lookup key = some value ↔ (key, value) ∈ entries := by
  refine ⟨mem_of_lookup, fun member => ?_⟩
  obtain ⟨before, after, rfl⟩ := List.append_of_mem member
  refine List.lookup_eq_some_iff.mpr ⟨before, after, rfl, fun earlier inBefore => ?_⟩
  rw [List.map_append, List.nodup_append] at distinct
  have differ := distinct.2.2 earlier.1 (List.mem_map_of_mem inBefore) key (by simp)
  simpa using fun same : key = earlier.1 => differ same.symm

/-- A key has no value exactly when it is not among the keys. -/
theorem lookup_eq_none_iff {entries : List (κ × β)} {key : κ} :
    entries.lookup key = none ↔ key ∉ entries.map Prod.fst := by
  rw [List.lookup_eq_none_iff]
  simp only [List.mem_map, not_exists, not_and, bne_iff_ne]
  exact forall₂_congr fun entry _ => ne_comm

/-- The entries of a permuted list with distinct keys are found under the same keys. -/
theorem lookup_eq_of_perm {entries entries' : List (κ × β)} (reordered : entries.Perm entries')
    (distinct : (entries.map Prod.fst).Nodup) (key : κ) :
    entries.lookup key = entries'.lookup key := by
  have distinct' : (entries'.map Prod.fst).Nodup := (reordered.map Prod.fst).nodup_iff.mp distinct
  cases found : entries'.lookup key with
  | some value =>
      rw [lookup_eq_some_iff distinct]
      exact reordered.mem_iff.mpr (mem_of_lookup found)
  | none =>
      rw [lookup_eq_none_iff] at found ⊢
      exact fun member => found ((reordered.map Prod.fst).mem_iff.mp member)

omit [BEq κ] [LawfulBEq κ] in
theorem map_fst_map {γ : Type} (change : β → γ) (entries : List (κ × β)) :
    (entries.map fun entry => (entry.1, change entry.2)).map Prod.fst = entries.map Prod.fst := by
  rw [List.map_map]
  rfl

/-- Looking up a key commutes with changing the values. -/
theorem lookup_map {γ : Type} (change : β → γ) (entries : List (κ × β)) (key : κ) :
    (entries.map fun entry => (entry.1, change entry.2)).lookup key
      = (entries.lookup key).map change := by
  induction entries with
  | nil => rfl
  | cons entry rest ih =>
      obtain ⟨head, value⟩ := entry
      by_cases same : key = head
      · simp [same]
      · simp [List.lookup_cons, beq_eq_false_iff_ne.mpr same, ih]

/-- Keeping only some keys keeps their values. -/
theorem lookup_filter (keep : κ → Bool) (entries : List (κ × β)) (key : κ) :
    (entries.filter fun entry => keep entry.1).lookup key
      = if keep key then entries.lookup key else none := by
  induction entries with
  | nil => simp
  | cons entry rest ih =>
      obtain ⟨head, value⟩ := entry
      by_cases same : key = head
      · subst same
        by_cases kept : keep key = true
        · simp [kept]
        · simp [kept, ih]
      · have other : (key == head) = false := beq_eq_false_iff_ne.mpr same
        rw [List.lookup_cons, other]
        by_cases kept : keep head = true
        · rw [List.filter_cons_of_pos (by exact kept), List.lookup_cons, other, ih]
        · rw [List.filter_cons_of_neg (by exact kept), ih]

end DocStore.Lookup
