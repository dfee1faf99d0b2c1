import DocStore.Sorting
import DocStore.Text.Units
/-!
# Sorted lists

A comparison that ranks its elements (`Ranks`) sorts every list (`sorted_sort`), and a list that is
sorted already is kept as it is (`sort_eq_self`).  Elements of the same rank keep their order
(`pairwise_sort`); when a list has none, its order before the sort does not show afterwards
(`sort_eq_of_perm`).
-/

set_option autoImplicit false

namespace DocStore.Sorting

variable {α : Type} {before : α → α → Bool}

/-- A comparison that ranks elements: none comes before one that comes before it, and elements that
do not come before their predecessors make a chain. -/
structure Ranks (before : α → α → Bool) : Prop where
  asymm : ∀ {first second}, before first second = true → before second first = false
  trans : ∀ {first second third}, before second first = false → before third second = false →
    before third first = false

/-- Elements are ranked by a part that is ranked. -/
theorem Ranks.by_part {β : Type} (ranks : Ranks before) (part : β → α) :
    Ranks fun first second => before (part first) (part second) :=
  ⟨ranks.asymm, ranks.trans⟩

/-- A list in which no element comes before an earlier one. -/
def Sorted (before : α → α → Bool) (list : List α) : Prop :=
  list.Pairwise fun first second => before second first = false

theorem insert_eq_cons {element : α} {list : List α}
    (least : ∀ other ∈ list, before other element = false) :
    insert before element list = element :: list := by
  cases list with
  | nil => rfl
  | cons head rest => simp [insert, least head List.mem_cons_self]

/-- A sorted list is kept as it is. -/
theorem sort_eq_self {list : List α} (sorted : Sorted before list) : sort before list = list := by
  induction list with
  | nil => rfl
  | cons head rest ih =>
      obtain ⟨least, sorted⟩ := List.pairwise_cons.mp sorted
      rw [sort, ih sorted, insert_eq_cons least]

theorem sorted_insert (ranks : Ranks before) {element : α} {list : List α}
    (sorted : Sorted before list) : Sorted before (insert before element list) := by
  induction list with
  | nil => exact List.pairwise_singleton _ _
  | cons head rest ih =>
      obtain ⟨least, sortedRest⟩ := List.pairwise_cons.mp sorted
      unfold insert
      split
      next headFirst =>
        refine List.pairwise_cons.mpr ⟨fun other member => ?_, ih sortedRest⟩
        rcases List.mem_cons.mp ((insert_perm before element rest).mem_iff.mp member) with rfl | member
        · exact ranks.asymm headFirst
        · exact least other member
      next elementFirst =>
        have notBefore : before head element = false := Bool.not_eq_true _ |>.mp elementFirst
        refine List.pairwise_cons.mpr ⟨fun other member => ?_, sorted⟩
        rcases List.mem_cons.mp member with rfl | member
        · exact notBefore
        · exact ranks.trans notBefore (least other member)

/-- Sorting sorts. -/
theorem sorted_sort (ranks : Ranks before) (list : List α) : Sorted before (sort before list) := by
  induction list with
  | nil => exact List.Pairwise.nil
  | cons head rest ih => exact sorted_insert ranks ih

/-- Sorting keeps the order of elements that it does not tell apart: of a list that was sorted by a
minor comparison they are still in its order. -/
theorem pairwise_sort (ranks : Ranks before) {minor : α → α → Bool} {list : List α}
    (sorted : Sorted minor list) : (sort before list).Pairwise fun first second =>
      before second first = false ∧ (before first second = false → minor second first = false) := by
  induction list with
  | nil => exact List.Pairwise.nil
  | cons element rest ih =>
      obtain ⟨least, sortedRest⟩ := List.pairwise_cons.mp sorted
      have least : ∀ other ∈ sort before rest, minor other element = false :=
        fun other member => least other ((sort_perm before rest).mem_iff.mp member)
      have pairwise := ih sortedRest
      rw [sort]
      generalize sort before rest = list at pairwise least
      induction list with
      | nil => exact List.pairwise_singleton _ _
      | cons head list ihList =>
          obtain ⟨headFirst, pairwiseRest⟩ := List.pairwise_cons.mp pairwise
          unfold insert
          split
          next isBefore =>
            refine List.pairwise_cons.mpr ⟨fun other member => ?_,
              ihList pairwiseRest fun other member => least other (List.mem_cons_of_mem _ member)⟩
            rcases List.mem_cons.mp ((insert_perm before element list).mem_iff.mp member) with
              rfl | member
            · exact ⟨ranks.asymm isBefore, fun notBefore => by simp [isBefore] at notBefore⟩
            · exact headFirst other member
          next notBefore =>
            have notBefore : before head element = false := Bool.not_eq_true _ |>.mp notBefore
            refine List.pairwise_cons.mpr ⟨fun other member => ⟨?_, fun _ => least other member⟩,
              pairwise⟩
            rcases List.mem_cons.mp member with rfl | inRest
            · exact notBefore
            · exact ranks.trans notBefore (headFirst other inRest).1

/-- Where no two elements have the same rank, a sorted list is what sorting makes of its elements in
any order. -/
theorem eq_sort_of_sorted (ranks : Ranks before) {list list' : List α} (sorted : Sorted before list)
    (reordered : list.Perm list')
    (distinct : ∀ first ∈ list, ∀ second ∈ list, before first second = false →
      before second first = false → first = second) :
    list = sort before list' := by
  refine (reordered.trans (sort_perm before list').symm).eq_of_pairwise
    (fun first second inFirst inSecond notAfter notBefore => ?_) sorted (sorted_sort ranks list')
  have member := reordered.mem_iff.mpr ((sort_perm before list').mem_iff.mp inSecond)
  exact distinct first inFirst second member notBefore notAfter

/-- Where no two elements have the same rank, the order of a list does not show after sorting. -/
theorem sort_eq_of_perm (ranks : Ranks before) {list list' : List α} (reordered : list.Perm list')
    (distinct : ∀ first ∈ list, ∀ second ∈ list, before first second = false →
      before second first = false → first = second) :
    sort before list = sort before list' := by
  refine eq_sort_of_sorted ranks (sorted_sort ranks list) ((sort_perm before list).trans reordered) ?_
  intro first inFirst second inSecond
  exact distinct first ((sort_perm before list).mem_iff.mp inFirst) second
    ((sort_perm before list).mem_iff.mp inSecond)

section

variable (before) {β : Type} (part : β → α)

theorem map_insert (element : β) (list : List β) :
    (insert (fun first second => before (part first) (part second)) element list).map part
      = insert before (part element) (list.map part) := by
  induction list with
  | nil => rfl
  | cons head rest ih =>
      simp only [insert, List.map_cons]
      split
      · rw [List.map_cons, ih]
      · rfl

/-- Sorting by a rank of a part is sorting the parts. -/
theorem map_sort (list : List β) :
    (sort (fun first second => before (part first) (part second)) list).map part
      = sort before (list.map part) := by
  induction list with
  | nil => rfl
  | cons head rest ih => rw [sort, map_insert, ih, List.map_cons, sort]

end

/-- Sorting and leaving elements out can be exchanged. -/
theorem filter_sort (ranks : Ranks before) (keep : α → Bool) {list : List α}
    (distinct : ∀ first ∈ list, ∀ second ∈ list, before first second = false →
      before second first = false → first = second) :
    (sort before list).filter keep = sort before (list.filter keep) := by
  have sorted : Sorted before ((sort before list).filter keep) := (sorted_sort ranks list).filter _
  rw [← sort_eq_self sorted]
  refine sort_eq_of_perm ranks ((sort_perm before list).filter keep) ?_
  intro first inFirst second inSecond
  have inList {element : α} (member : element ∈ (sort before list).filter keep) : element ∈ list :=
    (sort_perm before list).mem_iff.mp (List.mem_filter.mp member).1
  exact distinct first (inList inFirst) second (inList inSecond)

end DocStore.Sorting

/-!
## The order of texts

A text is known by its units (`units_injective`), so the order of texts by their units ranks them
and gives no two of them the same rank (`ranks_before`, `eq_of_not_before`).
-/

namespace DocStore.Text

theorem charUnits_append_inj {first second : Char} {rest rest' : List Nat}
    (same : charUnits first ++ rest = charUnits second ++ rest') :
    first = second ∧ rest = rest' := by
  have valid := first.valid
  have valid' := second.valid
  simp only [UInt32.isValidChar, Nat.isValidChar] at valid valid'
  have code : first.val.toNat = first.toNat := rfl
  have code' : second.val.toNat = second.toNat := rfl
  simp only [charUnits] at same
  have equal : first.toNat = second.toNat ∧ rest = rest' := by
    split at same <;> split at same <;>
      simp only [List.cons_append, List.nil_append, List.cons.injEq] at same
    case isTrue.isTrue => exact same
    case isTrue.isFalse => omega
    case isFalse.isTrue => omega
    case isFalse.isFalse => exact ⟨by omega, same.2.2⟩
  exact ⟨Char.toNat_inj.mp equal.1, equal.2⟩

theorem charUnits_ne_nil (character : Char) : charUnits character ≠ [] := by
  simp only [charUnits]
  split <;> simp

theorem units_cons (character : Char) (rest : List Char) :
    units (character :: rest) = charUnits character ++ units rest := rfl

/-- A text is known by its units. -/
theorem units_injective : Function.Injective units := by
  intro first
  induction first with
  | nil =>
      intro second same
      cases second with
      | nil => rfl
      | cons character rest =>
          rw [units_nil, units_cons] at same
          exact absurd (List.append_eq_nil_iff.mp same.symm).1 (charUnits_ne_nil character)
  | cons character rest ih =>
      intro second same
      cases second with
      | nil =>
          rw [units_nil, units_cons] at same
          exact absurd (List.append_eq_nil_iff.mp same).1 (charUnits_ne_nil character)
      | cons character' rest' =>
          rw [units_cons, units_cons] at same
          obtain ⟨rfl, sameRest⟩ := charUnits_append_inj same
          rw [ih sameRest]

/-- Texts of equal rank are the same. -/
theorem eq_of_not_before {first second : String} (notBefore : before first second = false)
    (notAfter : before second first = false) : first = second := by
  simp only [before, decide_eq_false_iff_not, List.not_lt] at notBefore notAfter
  exact String.toList_inj.mp (units_injective (List.le_antisymm notAfter notBefore))

/-- The order of texts ranks them. -/
theorem ranks_before : Sorting.Ranks before where
  asymm {first second} isBefore := by
    simp only [before, decide_eq_true_eq, decide_eq_false_iff_not] at isBefore ⊢
    exact List.lt_asymm isBefore
  trans {first second third} notBefore notBefore' := by
    simp only [before, decide_eq_false_iff_not, List.not_lt] at notBefore notBefore' ⊢
    exact List.le_trans notBefore notBefore'

end DocStore.Text
