/-!
# Sorting by insertion

A list is sorted by inserting its elements, last first, into a sorted list.  The sort keeps the
order of elements that the comparison does not tell apart.  `sort_perm` says that sorting only
reorders.
-/

set_option autoImplicit false

namespace DocStore.Sorting

variable {α : Type}

/-- Insert an element before the first element that is not strictly before it. -/
def insert (before : α → α → Bool) (element : α) : List α → List α
  | [] => [element]
  | head :: rest =>
      if before head element then head :: insert before element rest
      else element :: head :: rest

/-- The list in the order of `before`; elements of equal rank keep their order. -/
def sort (before : α → α → Bool) : List α → List α
  | [] => []
  | head :: rest => insert before head (sort before rest)

theorem insert_perm (before : α → α → Bool) (element : α) (list : List α) :
    (insert before element list).Perm (element :: list) := by
  induction list with
  | nil => exact .refl _
  | cons head rest ih =>
      unfold insert
      split
      · exact (ih.cons head).trans (.swap element head rest)
      · exact .refl _

/-- Sorting only reorders. -/
theorem sort_perm (before : α → α → Bool) (list : List α) : (sort before list).Perm list := by
  induction list with
  | nil => exact .refl _
  | cons head rest ih => exact (insert_perm before head _).trans (ih.cons head)

end DocStore.Sorting
