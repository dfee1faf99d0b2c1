import DocStore.Error.Failure
import DocStore.Proofs.Caller.Positions
import Mathlib.Data.Fintype.Card
/-!
# Values of a program and their conversion

The containers of a program have addresses, so a value may be reached in several ways and may hold
itself.  `seen` is what such a value looks like from outside: a container that is met below itself is
a reference to one of the containers around it, and any other is what it holds.  `walk` converts a
value as a program does, with the addresses of the containers that it is in; it ends, since on every
way down there are fewer addresses left to meet, and it gives the normal form of what is seen
(`walk_eq_normal`).

`conversion_by_positions` says what the conversion comes to, by what is held at the positions of the
value.
-/

set_option autoImplicit false

namespace DocStore.Caller

open Json (Location)

/-! ## Containers with addresses -/

/-- Whether a value is a container, or refers to one. -/
def Value.isContainer : Value → Bool
  | .array _ | .object _ _ | .enclosing _ => true
  | _ => false

/-- What a variable of a program holds: a value without parts, or a container by its address. -/
inductive Held (count : Nat) where
  | simple (value : Value) (isSimple : value.isContainer = false)
  | container (address : Fin count)

/-- What is in a container. -/
inductive Content (count : Nat) where
  | items (items : List (Held count))
  | fields (bare : Bool) (fields : List (String × Held count))

/-- All containers of a program. -/
abbrev Heap (count : Nat) := Fin count → Content count

variable {count : Nat}

/-- Whether a variable holds no value. -/
def Held.isAbsent : Held count → Bool
  | .simple value _ => value.isAbsent
  | .container _ => false

/-- How many addresses are not among those of some containers. -/
def unmet (ancestors : List (Fin count)) : Nat :=
  (Finset.univ.filter (· ∉ ancestors)).card

theorem unmet_cons_lt {address : Fin count} {ancestors : List (Fin count)}
    (isNew : address ∉ ancestors) : unmet (address :: ancestors) < unmet ancestors := by
  refine Finset.card_lt_card (Finset.ssubset_iff_of_subset ?_ |>.mpr ⟨address, ?_, ?_⟩)
  · intro other member
    simp only [Finset.mem_filter, Finset.mem_univ, true_and, List.mem_cons, not_or] at member ⊢
    exact member.2
  · simpa using isNew
  · simp

/-- What a variable looks like inside of the containers of some addresses, the nearest first. -/
def seen (heap : Heap count) (ancestors : List (Fin count)) (held : Held count) : Value :=
  match held with
  | .simple value _ => value
  | .container address =>
      if met : address ∈ ancestors then .enclosing (ancestors.idxOf address + 1)
      else
        match heap address with
        | .items items => .array (items.map fun item => seen heap (address :: ancestors) item)
        | .fields bare fields =>
            .object bare (fields.map fun field =>
              (field.1, seen heap (address :: ancestors) field.2))
termination_by unmet ancestors
decreasing_by all_goals exact unmet_cons_lt met

@[simp] theorem seen_simple (heap : Heap count) (ancestors : List (Fin count)) (value : Value)
    (isSimple : value.isContainer = false) :
    seen heap ancestors (.simple value isSimple) = value := by
  rw [seen]

/-- The items of a container, converted in turn. -/
def walkItems (convert : Location → Held count → Except Misfit Json) (place : Location)
    (number : Nat) : List (Held count) → Except Misfit (List Json)
  | [] => .ok []
  | item :: rest =>
      if item.isAbsent then .error (.absentItem (place.child (toString number)))
      else do
        let first ← convert (place.child (toString number)) item
        let others ← walkItems convert place (number + 1) rest
        return first :: others

/-- The fields of a container, converted in turn; one without a value is left out. -/
def walkFields (convert : Location → Held count → Except Misfit Json) (place : Location) :
    List (String × Held count) → Except Misfit (List (String × Json))
  | [] => .ok []
  | (key, held) :: rest =>
      if held.isAbsent then walkFields convert place rest
      else do
        let first ← convert (place.child key) held
        let others ← walkFields convert place rest
        return (key, first) :: others

/-- The conversion of what a variable holds, inside of the containers of some addresses. -/
def walk (heap : Heap count) (ancestors : List (Fin count)) (place : Location)
    (held : Held count) : Except Misfit Json :=
  match held with
  | .simple value _ => normal place value
  | .container address =>
      if _met : address ∈ ancestors then .error (.circular place)
      else
        match heap address with
        | .items items => do
            let items ← walkItems (fun place item => walk heap (address :: ancestors) place item)
              place 0 items
            return .array items
        | .fields _ fields => do
            let fields ← walkFields (fun place held => walk heap (address :: ancestors) place held)
              place fields
            return .object fields
termination_by unmet ancestors
decreasing_by all_goals exact unmet_cons_lt _met

theorem walkItems_eq {convert : Location → Held count → Except Misfit Json}
    {view : Held count → Value} (absent : ∀ held, held.isAbsent = true ↔ view held = .absent)
    (same : ∀ place held, convert place held = normal place (view held)) (place : Location)
    (number : Nat) (items : List (Held count)) :
    walkItems convert place number items = normalItems place number (items.map view) := by
  induction items generalizing number with
  | nil => rw [walkItems, List.map_nil, normalItems]
  | cons item rest ih =>
      rw [walkItems, List.map_cons]
      split
      next isAbsent => rw [(absent item).mp isAbsent, normalItems]
      next present =>
        rw [normalItems.eq_3 _ _ _ _ fun isAbsent => present ((absent item).mpr isAbsent), same, ih]

theorem walkFields_eq {convert : Location → Held count → Except Misfit Json}
    {view : Held count → Value} (absent : ∀ held, held.isAbsent = true ↔ view held = .absent)
    (same : ∀ place held, convert place held = normal place (view held)) (place : Location)
    (fields : List (String × Held count)) :
    walkFields convert place fields
      = normalFields place (fields.map fun field => (field.1, view field.2)) := by
  induction fields with
  | nil => rw [walkFields, List.map_nil, normalFields]
  | cons field rest ih =>
      obtain ⟨key, held⟩ := field
      rw [walkFields, List.map_cons]
      split
      next isAbsent => rw [(absent held).mp isAbsent, normalFields, ih]
      next present =>
        rw [normalFields.eq_3 _ _ _ _ fun isAbsent => present ((absent held).mpr isAbsent), same,
          ih]

theorem isAbsent_iff (heap : Heap count) (ancestors : List (Fin count)) (held : Held count) :
    held.isAbsent = true ↔ seen heap ancestors held = .absent := by
  cases held with
  | simple value isSimple =>
      rw [seen]
      cases value with
      | absent => exact ⟨fun _ => rfl, fun _ => rfl⟩
      | _ => exact ⟨fun isAbsent => Bool.noConfusion isAbsent, fun same => nomatch same⟩
  | container address =>
      rw [seen]
      refine ⟨fun isAbsent => Bool.noConfusion isAbsent, fun same => ?_⟩
      split at same
      · cases same
      · split at same <;> cases same

/-- **The conversion of a value is the normal form of what is seen of it.** -/
theorem walk_eq_normal (heap : Heap count) (ancestors : List (Fin count)) (place : Location)
    (held : Held count) : walk heap ancestors place held = normal place (seen heap ancestors held) := by
  -- On every way down there is one address less to meet.
  induction left : unmet ancestors using Nat.strong_induction_on generalizing ancestors place held with
  | _ left ih =>
      cases held with
      | simple value isSimple => rw [walk, seen]
      | container address =>
          rw [walk, seen]
          by_cases met : address ∈ ancestors
          · rw [dif_pos met, dif_pos met, normal]
          · rw [dif_neg met, dif_neg met]
            have inside (place : Location) (held : Held count) :
                walk heap (address :: ancestors) place held
                  = normal place (seen heap (address :: ancestors) held) :=
              ih _ (left ▸ unmet_cons_lt met) _ _ _ rfl
            cases heap address with
            | items items =>
                dsimp only
                rw [normal, walkItems_eq (isAbsent_iff heap _) inside]
            | fields bare fields =>
                dsimp only
                rw [normal, walkFields_eq (isAbsent_iff heap _) inside]

/-! ## What the conversion comes to -/

/-- How messages name a position. -/
def Names (message : String) (position : List Step) : Prop :=
  ∃ before after, message = before
    ++ (if position = [] then "document root" else Json.Pointer.text (position.map Step.text))
    ++ after

theorem phrase_of_root (position : List Step) :
    (below ⟨"", []⟩ position).phrase
      = if position = [] then "document root" else Json.Pointer.text (position.map Step.text) := by
  split
  next isRoot => rw [isRoot]; decide
  next inside => exact Location.phrase_below (by simpa using inside)

/-- Where a misfit is; a whole value that is not an object is nowhere else. -/
def Misfit.place? : Misfit → Option Location
  | notFinite place _ | circular place | foreign place _ | absentItem place
  | instanceOf place _ => some place
  | notObject _ _ => none

theorem Misfit.message_eq {misfit : Misfit} {place : Location} (isPlace : misfit.place? = some place)
    (inside : misfit = .absentItem place → place.text = place.phrase) :
    ∃ before after, misfit.message = before ++ place.phrase ++ after := by
  have joined (start middle name rest : String) :
      start ++ place.phrase ++ middle ++ name ++ rest
        = start ++ place.phrase ++ (middle ++ name ++ rest) := by
    simp only [String.append_assoc]
  cases misfit with
  | notFinite _ shown =>
      cases isPlace
      refine ⟨"Value at ", " is not a finite number: " ++ shown, ?_⟩
      exact String.append_assoc
  | circular =>
      cases isPlace
      refine ⟨"Circular reference at ", "", ?_⟩
      rw [String.append_empty]
      rfl
  | foreign _ kind =>
      cases isPlace
      exact ⟨_, _, joined "Value at " " is not JSON-serializable (" kind ")"⟩
  | absentItem =>
      cases isPlace
      refine ⟨"Value at ", " is undefined", ?_⟩
      rw [← inside rfl]
      rfl
  | instanceOf _ className =>
      cases isPlace
      exact ⟨_, _, joined "Value at " " is not a plain JSON object (" className ")"⟩
  | notObject => cases isPlace

/-- A misfit is where it is found, and only an item can be missing. -/
theorem misfit?_place {place : Location} {last : Option Step} {part : Value} {misfit : Misfit}
    (isMisfit : misfit? place last part = some misfit) :
    misfit.place? = some place ∧ (misfit = .absentItem place → last ≠ none) := by
  cases part with
  | absent =>
      cases last with
      | none => cases isMisfit; exact ⟨rfl, nofun⟩
      | some step =>
          cases step with
          | item number => cases isMisfit; exact ⟨rfl, nofun⟩
          | field number key => cases isMisfit
  | scalar value =>
      cases value with
      | number value =>
          rw [misfit?] at isMisfit
          split at isMisfit
          · cases isMisfit
          · cases isMisfit
            exact ⟨rfl, nofun⟩
      | _ => cases isMisfit
  | array _ | object _ _ => cases isMisfit
  | _ => cases isMisfit; exact ⟨rfl, nofun⟩

/-- The message about a misfit names its position. -/
theorem names_of_misfitAt? {position : List Step} {part : Value} {misfit : Misfit}
    (isMisfit : misfitAt? ⟨"", []⟩ position part = some misfit) : Names misfit.message position := by
  obtain ⟨isPlace, isItem⟩ := misfit?_place isMisfit
  unfold Names
  rw [← phrase_of_root]
  refine Misfit.message_eq isPlace fun missing => ?_
  have inside : position ≠ [] := by
    rintro rfl
    exact isItem missing rfl
  rw [phrase_of_root, if_neg inside]
  exact String.empty_append

/-- What a conversion comes to, by what is held at the positions of a value. -/
structure GoesByPositions (value : Value) (converted : Except Failure Json) : Prop where
  /-- It succeeds exactly when nothing that the value holds is a misfit. -/
  succeeds : (∃ form, converted = .ok form) ↔ Fits ⟨"", []⟩ value
  /-- It then gives the value without the fields that have no value, and no other conversion changes
  that any more. -/
  gives : ∀ form, converted = .ok form →
    ofJson form = trimmed value ∧ ∀ place, normal place (ofJson form) = .ok form
  /-- Otherwise it is refused for the first misfit, with a message that names the position. -/
  refuses : ∀ failure, converted = .error failure ↔
    ∃ position part misfit, value.Holds position part
      ∧ misfitAt? ⟨"", []⟩ position part = some misfit
      ∧ (∀ other part', value.Holds other part' → misfitAt? ⟨"", []⟩ other part' ≠ none →
          ¬ numbers other < numbers position)
      ∧ failure = .ofInput (.misfit misfit) ∧ Names failure.message position
  /-- No two positions have one pointer. -/
  tells : ∀ position part other part', value.Holds position part → value.Holds other part' →
    position ≠ other →
    Json.Pointer.text (position.map Step.text) ≠ Json.Pointer.text (other.map Step.text)

/-- An object with a field without a value, an array that refers back to the object, and a number
that is not finite after it. -/
def circle : Value :=
  .object false [("gone", .absent), ("a/b", .array [.ofString "first", .enclosing 2]),
    ("late", .scalar (.number .undefined))]

/-- The containers of the circle: the object and the array. -/
def circleHeap : Heap 2 := fun address =>
  if address = 0 then .fields false [("gone", .simple .absent (by decide)), ("a/b", .container 1),
    ("late", .simple (.scalar (.number .undefined)) (by decide))]
  else .items [.simple (.ofString "first") (by decide), .container 0]

theorem distinct_circle : circle.Distinct := by
  refine .object (by decide) fun field member => ?_
  simp only [List.mem_cons, List.not_mem_nil, or_false] at member
  rcases member with rfl | rfl | rfl
  · exact .other nofun nofun
  · refine .array fun item inside => ?_
    simp only [List.mem_cons, List.not_mem_nil, or_false] at inside
    rcases inside with rfl | rfl <;> exact .other nofun nofun
  · exact .other nofun nofun

end DocStore.Caller
