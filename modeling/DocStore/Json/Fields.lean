import DocStore.Sorting
/-!
# The fields of an object

An object holds each key once.  It lists first the keys that are the decimal text of a number below
`2 ^ 32 - 1`, in the order of those numbers, and then all other keys in the order in which they
were added; `inKeyOrder` arranges fields so.  Assigning to a key that is already there keeps its
place: `lookup_put` gives the value of every key after an assignment.
-/

set_option autoImplicit false

namespace DocStore.Fields

variable {β : Type}

/-- The value of a text of decimal digits. -/
def digitsValue (digits : List Char) : Nat :=
  digits.foldl (fun value digit => 10 * value + (digit.toNat - 48)) 0

/-- The number whose decimal text a key is, when it is below `2 ^ 32 - 1`. -/
def indexKey? (key : String) : Option Nat :=
  let value := digitsValue key.toList
  if Nat.toDigits 10 value = key.toList ∧ value < 4294967295 then some value else none

/-- Whether a key is listed before another one that was added earlier. -/
def keyBefore (first second : String) : Bool :=
  match indexKey? first, indexKey? second with
  | some index, some index' => decide (index < index')
  | some _, none => true
  | none, _ => false

/-- The fields in the order in which an object lists them. -/
def inKeyOrder (fields : List (String × β)) : List (String × β) :=
  Sorting.sort (fun first second => keyBefore first.1 second.1) fields

/-- Assign a value to a key; a new key goes to the end. -/
def put (key : String) (value : β) : List (String × β) → List (String × β)
  | [] => [(key, value)]
  | (head, old) :: rest =>
      if head = key then (head, value) :: rest else (head, old) :: put key value rest

theorem lookup_put (key : String) (value : β) (fields : List (String × β)) (wanted : String) :
    (put key value fields).lookup wanted
      = if wanted = key then some value else fields.lookup wanted := by
  induction fields with
  | nil =>
      by_cases same : wanted = key
      · simp [put, same]
      · simp [put, List.lookup_cons, same, beq_eq_false_iff_ne.mpr same]
  | cons field rest ih =>
      obtain ⟨head, old⟩ := field
      by_cases present : head = key
      · subst present
        by_cases same : wanted = head
        · simp [put, same]
        · simp [put, List.lookup_cons, same, beq_eq_false_iff_ne.mpr same]
      · by_cases same : wanted = head
        · subst same
          simp [put, present]
        · simp [put, present, List.lookup_cons, beq_eq_false_iff_ne.mpr same, ih]

/-- The fields of an object whose keys were assigned one after the other. -/
def ofList (assignments : List (String × β)) : List (String × β) :=
  inKeyOrder (assignments.foldl (fun fields assignment => put assignment.1 assignment.2 fields) [])

/-- Whether the fields have a key. -/
def has (fields : List (String × β)) (key : String) : Bool :=
  (fields.lookup key).isSome

end DocStore.Fields
