import DocStore.Proofs.Caller.Normal
import DocStore.Proofs.Json.Pointers
import Mathlib.Data.List.Nodup
/-!
# Positions in a caller's value

A position is the list of the steps that lead from a value to one of its parts, and a step goes to an
item by its number or to a field by its key; a field has a number as well, by the order of the keys.
The numbers of its steps order the positions, and this is the order in which a value is walked
through depth first.

`misfitAt?` says which misfit a part is where it stands, without looking at what is around it
otherwise, and `normal_tells` that the normal form goes by nothing else: either there is no misfit
at any position, and the normal form holds what the value holds without its fields that have no
value (`trimmed`), or the normal form is refused for the misfit at the first position that has one.

No two positions have one pointer (`Value.Holds.pointer_ne`), since a pointer tells its steps and
the keys of an object differ.
-/

set_option autoImplicit false

namespace DocStore.Caller

open Json (Location Pointer.chars)

/-! ## Parts and positions -/

/-- A step to a part of a value: to the item of a number, or to the field of a key, which also has a
number. -/
inductive Step where
  | item (number : Nat)
  | field (number : Nat) (key : String)

namespace Step

/-- The number of the part that a step leads to. -/
def number : Step → Nat
  | item number => number
  | field number _ => number

/-- The step as pointers write it. -/
def text : Step → String
  | item number => toString number
  | field _ key => key

end Step

/-- Items with the steps to them, the first of which has the given number. -/
def itemParts : Nat → List Value → List (Step × Value)
  | _, [] => []
  | number, item :: rest => (.item number, item) :: itemParts (number + 1) rest

/-- The values of fields with the steps to them, the first of which has the given number. -/
def fieldParts : Nat → List (String × Value) → List (Step × Value)
  | _, [] => []
  | number, (key, value) :: rest => (.field number key, value) :: fieldParts (number + 1) rest

/-- The parts of a value in the order of its keys. -/
def Value.parts : Value → List (Step × Value)
  | .array items => itemParts 0 items
  | .object _ fields => fieldParts 0 fields
  | _ => []

/-- What a value holds at a position. -/
inductive Value.Holds : Value → List Step → Value → Prop
  | here (value : Value) : Holds value [] value
  | inside {value inner part : Value} {step : Step} {position : List Step}
      (isPart : (step, inner) ∈ value.parts) (holds : Holds inner position part) :
      Holds value (step :: position) part

/-- The numbers of the steps of a position, by which positions are ordered. -/
def numbers (position : List Step) : List Nat := position.map Step.number

/-- The location of a position below a place. -/
def below (place : Location) (position : List Step) : Location :=
  { place with steps := place.steps ++ position.map Step.text }

theorem le_number_itemParts {start : Nat} {items : List Value} {part : Step × Value}
    (member : part ∈ itemParts start items) : start ≤ part.1.number := by
  induction items generalizing start with
  | nil => cases member
  | cons item rest ih =>
      rcases List.mem_cons.mp member with rfl | member
      · exact Nat.le_refl _
      · exact Nat.le_of_succ_le (ih member)

theorem le_number_fieldParts {start : Nat} {fields : List (String × Value)} {part : Step × Value}
    (member : part ∈ fieldParts start fields) : start ≤ part.1.number := by
  induction fields generalizing start with
  | nil => cases member
  | cons field rest ih =>
      rcases List.mem_cons.mp member with rfl | member
      · exact Nat.le_refl _
      · exact Nat.le_of_succ_le (ih member)

/-! ## Misfits -/

/-- Which misfit a part is at a place, by the last step to it.  What has no value may not be an item
nor the whole value, but it may be the value of a field. -/
def misfit? (place : Location) (last : Option Step) : Value → Option Misfit
  | .absent =>
      match last with
      | none => some (.foreign place "undefined")
      | some (.item _) => some (.absentItem place)
      | some (.field _ _) => none
  | .scalar (.number value) =>
      if value.isFinite then none else some (.notFinite place value.text)
  | .scalar _ | .array _ | .object _ _ => none
  | .enclosing _ => some (.circular place)
  | .date _ => some (.instanceOf place "Date")
  | .table => some (.instanceOf place "Map")
  | .instanceOf className => some (.instanceOf place className)
  | .integer _ => some (.foreign place "bigint")
  | .symbol _ => some (.foreign place "symbol")
  | .function => some (.foreign place "function")

/-- Which misfit a part is at a position below a place. -/
def misfitAt? (place : Location) (position : List Step) (part : Value) : Option Misfit :=
  misfit? (below place position) position.getLast? part

/-- Nothing that a value holds is a misfit. -/
def Fits (place : Location) (value : Value) : Prop :=
  ∀ position part, value.Holds position part → misfitAt? place position part = none

/-- The misfit is the one at the first position that has one. -/
def FirstMisfit (place : Location) (value : Value) (misfit : Misfit) : Prop :=
  ∃ position part, value.Holds position part ∧ misfitAt? place position part = some misfit
    ∧ ∀ other part', value.Holds other part' → misfitAt? place other part' ≠ none →
      ¬ numbers other < numbers position

theorem not_firstMisfit_of_fits {place : Location} {value : Value} (fits : Fits place value)
    (misfit : Misfit) : ¬ FirstMisfit place value misfit := by
  rintro ⟨position, part, holds, isMisfit, _⟩
  rw [fits position part holds] at isMisfit
  cases isMisfit

/-- What is a misfit below a part is one below the value, except that a part without a value depends
on the step to it. -/
theorem misfitAt?_cons {place : Location} {step : Step} {position : List Step} {part : Value}
    (present : position = [] → part ≠ .absent) :
    misfitAt? place (step :: position) part = misfitAt? (place.child step.text) position part := by
  have same : below place (step :: position) = below (place.child step.text) position := by
    simp [below, Location.child]
  rw [misfitAt?, misfitAt?, same]
  cases position with
  | nil =>
      have notAbsent := present rfl
      cases part with
      | absent => exact absurd rfl notAbsent
      | scalar value => cases value <;> rfl
      | _ => rfl
  | cons next rest => rw [List.getLast?_cons_cons]

theorem Value.Holds.eq_of_nil {value part : Value} (holds : value.Holds [] part) : part = value := by
  cases holds
  rfl

/-! ## Misfits among parts -/

/-- Nothing in some parts of a value is a misfit. -/
def FitAmong (place : Location) (parts : List (Step × Value)) : Prop :=
  ∀ step inner, (step, inner) ∈ parts → ∀ position part, inner.Holds position part →
    misfitAt? place (step :: position) part = none

/-- The misfit is the one at the first position in some parts of a value that has one. -/
def FirstAmong (place : Location) (parts : List (Step × Value)) (misfit : Misfit) : Prop :=
  ∃ step inner position part, (step, inner) ∈ parts ∧ inner.Holds position part
    ∧ misfitAt? place (step :: position) part = some misfit
    ∧ ∀ step' inner' other part', (step', inner') ∈ parts → inner'.Holds other part' →
      misfitAt? place (step' :: other) part' ≠ none →
      ¬ numbers (step' :: other) < numbers (step :: position)

section

variable {place : Location} {step : Step} {inner : Value} {rest : List (Step × Value)}
  {misfit : Misfit}

theorem fitAmong_nil : FitAmong place [] := fun _ _ member => nomatch member

theorem FitAmong.cons
    (first : ∀ position part, inner.Holds position part →
      misfitAt? place (step :: position) part = none)
    (others : FitAmong place rest) : FitAmong place ((step, inner) :: rest) := by
  intro step' inner' member
  rcases List.mem_cons.mp member with same | member
  · cases same
    exact first
  · exact others step' inner' member

/-- What fits below a part with a value fits below the value. -/
theorem Fits.inPart (fits : Fits (place.child step.text) inner) (present : inner ≠ .absent) :
    ∀ position part, inner.Holds position part →
      misfitAt? place (step :: position) part = none := by
  intro position part holds
  rw [misfitAt?_cons]
  · exact fits position part holds
  · rintro rfl
    rwa [holds.eq_of_nil]

/-- A misfit in the first part comes before all in the parts after it. -/
theorem FirstAmong.head
    (first : ∃ position part, inner.Holds position part
      ∧ misfitAt? place (step :: position) part = some misfit
      ∧ ∀ other part', inner.Holds other part' → misfitAt? place (step :: other) part' ≠ none →
        ¬ numbers other < numbers position)
    (later : ∀ part ∈ rest, step.number < part.1.number) :
    FirstAmong place ((step, inner) :: rest) misfit := by
  obtain ⟨position, part, holds, isMisfit, least⟩ := first
  refine ⟨step, inner, position, part, by simp, holds, isMisfit, ?_⟩
  intro step' inner' other part' member holds' isMisfit'
  rcases List.mem_cons.mp member with same | member
  · cases same
    intro earlier
    rcases List.cons_lt_cons_iff.mp earlier with lower | ⟨_, lower⟩
    · exact Nat.lt_irrefl _ lower
    · exact least other part' holds' isMisfit' lower
  · have before : step.number < step'.number := later _ member
    intro earlier
    rcases List.cons_lt_cons_iff.mp earlier with lower | ⟨same, _⟩
    · exact Nat.lt_asymm before lower
    · exact Nat.ne_of_gt before same

theorem FirstAmong.head_of_firstMisfit (first : FirstMisfit (place.child step.text) inner misfit)
    (present : inner ≠ .absent) (later : ∀ part ∈ rest, step.number < part.1.number) :
    FirstAmong place ((step, inner) :: rest) misfit := by
  have same {position : List Step} {part : Value} (holds : inner.Holds position part) :
      misfitAt? place (step :: position) part
        = misfitAt? (place.child step.text) position part := by
    refine misfitAt?_cons ?_
    rintro rfl
    rwa [holds.eq_of_nil]
  obtain ⟨position, part, holds, isMisfit, least⟩ := first
  refine .head ⟨position, part, holds, (same holds).trans isMisfit, ?_⟩ later
  intro other part' holds' isMisfit'
  rw [same holds'] at isMisfit'
  exact least other part' holds' isMisfit'

/-- The first misfit after a part that fits is the first one. -/
theorem FirstAmong.tail
    (fits : ∀ position part, inner.Holds position part →
      misfitAt? place (step :: position) part = none)
    (first : FirstAmong place rest misfit) : FirstAmong place ((step, inner) :: rest) misfit := by
  obtain ⟨step', inner', position, part, member, holds, isMisfit, least⟩ := first
  refine ⟨step', inner', position, part, by simp [member], holds, isMisfit, ?_⟩
  intro other inner'' position' part' member' holds' isMisfit'
  rcases List.mem_cons.mp member' with same | member'
  · cases same
    exact absurd (fits position' part' holds') isMisfit'
  · exact least other inner'' position' part' member' holds' isMisfit'

end

/-- A container fits when its parts do. -/
theorem fits_of_parts {place : Location} {value : Value}
    (own : misfitAt? place [] value = none) (fit : FitAmong place value.parts) :
    Fits place value := by
  intro position part holds
  cases holds with
  | here => exact own
  | inside isPart holds => exact fit _ _ isPart _ _ holds

/-- The first misfit among the parts of a container is the first one in it. -/
theorem firstMisfit_of_parts {place : Location} {value : Value} {misfit : Misfit}
    (own : misfitAt? place [] value = none) (first : FirstAmong place value.parts misfit) :
    FirstMisfit place value misfit := by
  obtain ⟨step, inner, position, part, member, holds, isMisfit, least⟩ := first
  refine ⟨step :: position, part, .inside member holds, isMisfit, ?_⟩
  intro other part' holds' isMisfit'
  cases holds' with
  | here => exact absurd own isMisfit'
  | inside isPart holds => exact least _ _ _ _ isPart holds isMisfit'

/-- A value without parts is a misfit itself or fits. -/
theorem holds_of_parts_eq_nil {value part : Value} {position : List Step}
    (noParts : value.parts = []) (holds : value.Holds position part) :
    position = [] ∧ part = value := by
  cases holds with
  | here => exact ⟨rfl, rfl⟩
  | inside isPart _ => rw [noParts] at isPart; cases isPart

/-! ## What remains of a value -/

mutual
/-- A value without the fields that have no value, at any depth. -/
def trimmed : Value → Value
  | .array items => .array (trimmedItems items)
  | .object _ fields => .object false (trimmedFields fields)
  | value => value

/-- Items, each without the fields that have no value. -/
def trimmedItems : List Value → List Value
  | [] => []
  | item :: rest => trimmed item :: trimmedItems rest

/-- The fields that have a value, each without the fields in it that have none. -/
def trimmedFields : List (String × Value) → List (String × Value)
  | [] => []
  | (_, .absent) :: rest => trimmedFields rest
  | (key, value) :: rest => (key, trimmed value) :: trimmedFields rest
end

/-! ## The normal form goes by positions -/

/-- What a result tells of a value: it is the normal form where everything fits, or else the first
misfit. -/
def Tells (place : Location) (value : Value) : Except Misfit Json → Prop
  | .ok form => Fits place value ∧ ofJson form = trimmed value
  | .error misfit => FirstMisfit place value misfit

/-- What a result tells of some parts of a value, the normal forms of which have a property. -/
def TellsAmong {α : Type} (place : Location) (parts : List (Step × Value))
    (right : List α → Prop) : Except Misfit (List α) → Prop
  | .ok forms => FitAmong place parts ∧ right forms
  | .error misfit => FirstAmong place parts misfit

theorem TellsAmong.mono {α : Type} {place : Location} {parts : List (Step × Value)}
    {right right' : List α → Prop} {result : Except Misfit (List α)}
    (tells : TellsAmong place parts right result) (weaker : ∀ forms, right forms → right' forms) :
    TellsAmong place parts right' result := by
  cases result with
  | ok forms => exact ⟨tells.1, weaker forms tells.2⟩
  | error misfit => exact tells

/-- The first part is settled before all others. -/
theorem TellsAmong.cons {α : Type} {place : Location} (step : Step) {inner : Value}
    {rest : List (Step × Value)} {right : List α → Prop} {first : Except Misfit Json}
    {others : Except Misfit (List α)} (make : Json → α)
    (here : Tells (place.child step.text) inner first) (present : inner ≠ .absent)
    (later : ∀ part ∈ rest, step.number < part.1.number)
    (tells : TellsAmong place rest right others) :
    TellsAmong place ((step, inner) :: rest)
      (fun forms => ∃ form tail, forms = make form :: tail ∧ ofJson form = trimmed inner ∧ right tail)
      (do
        let form ← first
        let forms ← others
        return make form :: forms) := by
  cases first with
  | error misfit => exact .head_of_firstMisfit here present later
  | ok form =>
      cases others with
      | error misfit => exact .tail (here.1.inPart present) tells
      | ok forms =>
          exact ⟨.cons (here.1.inPart present) tells.1, form, forms, rfl, here.2, tells.2⟩

/-- A part that is dropped, as nothing in it is a misfit, is not in the way of the others. -/
theorem TellsAmong.skip {α : Type} {place : Location} {step : Step} {inner : Value}
    {rest : List (Step × Value)} {right : List α → Prop} {result : Except Misfit (List α)}
    (fits : ∀ position part, inner.Holds position part →
      misfitAt? place (step :: position) part = none)
    (tells : TellsAmong place rest right result) :
    TellsAmong place ((step, inner) :: rest) right result := by
  cases result with
  | ok forms => exact ⟨.cons fits tells.1, tells.2⟩
  | error misfit => exact .tail fits tells

theorem tells_of_leaf {place : Location} {value : Value} (noParts : value.parts = [])
    {form : Json} (own : misfitAt? place [] value = none) (same : ofJson form = trimmed value) :
    Tells place value (.ok form) := by
  refine ⟨fun position part holds => ?_, same⟩
  obtain ⟨rfl, rfl⟩ := holds_of_parts_eq_nil noParts holds
  exact own

theorem tells_of_misfit {place : Location} {value : Value} {misfit : Misfit}
    (own : misfitAt? place [] value = some misfit) : Tells place value (.error misfit) :=
  ⟨[], value, .here value, own, fun _ _ _ _ => List.not_lt_nil _⟩

theorem below_nil (place : Location) : below place [] = place := by
  rw [below, List.map_nil, List.append_nil]

theorem normalScalar_tells (place : Location) (value : Scalar) :
    Tells place (.scalar value) (normalScalar place value) := by
  cases value with
  | number value =>
      rw [normalScalar]
      split
      next finite =>
        exact tells_of_leaf rfl (if_pos finite) rfl
      next infinite =>
        refine tells_of_misfit ((if_neg infinite).trans ?_)
        rw [below_nil]
  | null | boolean _ | string _ => exact tells_of_leaf rfl rfl rfl

mutual
/-- **The normal form goes by what is held at positions**: it exists where nothing is a misfit, and
otherwise it is refused for the first misfit. -/
theorem normal_tells (place : Location) : (value : Value) → Tells place value (normal place value)
  | .scalar value => by
      rw [normal]
      exact normalScalar_tells place value
  | .enclosing _ | .date _ | .table | .instanceOf _ | .absent | .integer _ | .symbol _
  | .function => by
      rw [normal]
      refine tells_of_misfit ?_
      rw [misfitAt?, below_nil]
      rfl
  | .array items => by
      have inside := normalItems_tells place 0 items
      rw [normal]
      cases result : normalItems place 0 items with
      | error misfit =>
          rw [result] at inside
          exact firstMisfit_of_parts rfl inside
      | ok forms =>
          rw [result] at inside
          exact ⟨fits_of_parts rfl inside.1, by rw [ofJson_array, inside.2, trimmed]⟩
  | .object bare fields => by
      have inside := normalFields_tells place 0 fields
      rw [normal]
      cases result : normalFields place fields with
      | error misfit =>
          rw [result] at inside
          exact firstMisfit_of_parts rfl inside
      | ok forms =>
          rw [result] at inside
          exact ⟨fits_of_parts rfl inside.1, by rw [ofJson_object, inside.2, trimmed]⟩

theorem normalItems_tells (place : Location) (number : Nat) : (items : List Value) →
    TellsAmong place (itemParts number items)
      (fun forms => forms.map ofJson = trimmedItems items) (normalItems place number items)
  | [] => by
      rw [normalItems]
      exact ⟨fitAmong_nil, rfl⟩
  | item :: rest => by
      have here := normal_tells (place.child (toString number)) item
      have others := normalItems_tells place (number + 1) rest
      have later : ∀ part ∈ itemParts (number + 1) rest, number < part.1.number :=
        fun _ member => le_number_itemParts member
      by_cases absent : item = .absent
      · rw [absent, normalItems]
        exact .head ⟨[], .absent, .here _, rfl, fun _ _ _ _ => List.not_lt_nil _⟩ later
      · rw [normalItems.eq_3 _ _ _ _ absent]
        refine (TellsAmong.cons (.item number) id here absent later others).mono ?_
        rintro _ ⟨form, forms, rfl, same, sameRest⟩
        rw [trimmedItems, ← same, ← sameRest]
        rfl

theorem normalFields_tells (place : Location) (number : Nat) : (fields : List (String × Value)) →
    TellsAmong place (fieldParts number fields)
      (fun forms => (forms.map fun field => (field.1, ofJson field.2)) = trimmedFields fields)
      (normalFields place fields)
  | [] => by
      rw [normalFields]
      exact ⟨fitAmong_nil, rfl⟩
  | (key, value) :: rest => by
      have here := normal_tells (place.child key) value
      have others := normalFields_tells place (number + 1) rest
      have later : ∀ part ∈ fieldParts (number + 1) rest, number < part.1.number :=
        fun _ member => le_number_fieldParts member
      by_cases absent : value = .absent
      · subst absent
        rw [normalFields]
        refine .skip (fun position part holds => ?_) others
        obtain ⟨rfl, rfl⟩ := holds_of_parts_eq_nil rfl holds
        rfl
      · rw [normalFields.eq_3 _ _ _ _ absent]
        refine (TellsAmong.cons (.field number key) (key, ·) here absent later others).mono ?_
        rintro _ ⟨form, forms, rfl, same, sameRest⟩
        rw [trimmedFields.eq_3 _ _ _ absent, ← same, ← sameRest]
        rfl
end

/-! ## Positions and their pointers -/

theorem mem_of_mem_itemParts {start : Nat} {items : List Value} {part : Step × Value}
    (member : part ∈ itemParts start items) : part.2 ∈ items := by
  induction items generalizing start with
  | nil => cases member
  | cons item rest ih =>
      rcases List.mem_cons.mp member with rfl | member
      · exact List.mem_cons_self
      · exact List.mem_cons_of_mem _ (ih member)

theorem exists_mem_of_mem_fieldParts {start : Nat} {fields : List (String × Value)}
    {part : Step × Value} (member : part ∈ fieldParts start fields) :
    ∃ field ∈ fields, field.2 = part.2 := by
  induction fields generalizing start with
  | nil => cases member
  | cons field rest ih =>
      rcases List.mem_cons.mp member with rfl | member
      · exact ⟨field, List.mem_cons_self, rfl⟩
      · obtain ⟨found, inRest, same⟩ := ih member
        exact ⟨found, List.mem_cons_of_mem _ inRest, same⟩

theorem texts_itemParts (start : Nat) (items : List Value) :
    ((itemParts start items).map fun part => part.1.text)
      = ((itemParts start items).map fun part => part.1.number).map toString := by
  induction items generalizing start with
  | nil => rfl
  | cons item rest ih =>
      rw [itemParts, List.map_cons, ih, List.map_cons, List.map_cons]
      rfl

theorem texts_fieldParts (start : Nat) (fields : List (String × Value)) :
    ((fieldParts start fields).map fun part => part.1.text) = fields.map Prod.fst := by
  induction fields generalizing start with
  | nil => rfl
  | cons field rest ih =>
      rw [fieldParts, List.map_cons, ih, List.map_cons]
      rfl

theorem numbers_itemParts (start : Nat) (items : List Value) :
    ((itemParts start items).map fun part => part.1.number) = List.range' start items.length := by
  induction items generalizing start with
  | nil => rfl
  | cons item rest ih =>
      rw [itemParts, List.map_cons, ih, List.length_cons, List.range'_succ]
      rfl

theorem numbers_fieldParts (start : Nat) (fields : List (String × Value)) :
    ((fieldParts start fields).map fun part => part.1.number)
      = List.range' start fields.length := by
  induction fields generalizing start with
  | nil => rfl
  | cons field rest ih =>
      rw [fieldParts, List.map_cons, ih, List.length_cons, List.range'_succ]
      rfl

/-- No two parts of a value have one number. -/
theorem Value.nodup_numbers (value : Value) :
    (value.parts.map fun part => part.1.number).Nodup := by
  cases value with
  | array items =>
      rw [parts, numbers_itemParts]
      exact List.nodup_range'
  | object bare fields =>
      rw [parts, numbers_fieldParts]
      exact List.nodup_range'
  | _ => exact List.nodup_nil

theorem toString_nat_injective : Function.Injective (toString : Nat → String) := by
  intro first second same
  have digits : Nat.toDigits 10 first = Nat.toDigits 10 second := String.ofList_injective same
  rw [← Nat.ofDigitChars_ten_toDigits (n := first), digits, Nat.ofDigitChars_ten_toDigits]

/-- No two parts of a value are reached by steps of one text. -/
theorem Value.Distinct.nodup_texts {value : Value} (distinct : value.Distinct) :
    (value.parts.map fun part => part.1.text).Nodup := by
  cases distinct with
  | array each =>
      rw [parts, texts_itemParts]
      exact List.Nodup.map toString_nat_injective (Value.nodup_numbers (.array _))
  | object keys each =>
      rw [parts, texts_fieldParts]
      exact keys
  | other noArray noObject =>
      cases value with
      | array items => exact absurd rfl (noArray items)
      | object bare fields => exact absurd rfl (noObject bare fields)
      | _ => exact List.nodup_nil

theorem Value.Distinct.inner {value : Value} (distinct : value.Distinct) {part : Step × Value}
    (isPart : part ∈ value.parts) : part.2.Distinct := by
  cases distinct with
  | array each => exact each _ (mem_of_mem_itemParts isPart)
  | object keys each =>
      obtain ⟨field, member, same⟩ := exists_mem_of_mem_fieldParts isPart
      exact same ▸ each field member
  | other noArray noObject =>
      cases value with
      | array items => exact absurd rfl (noArray items)
      | object bare fields => exact absurd rfl (noObject bare fields)
      | _ => cases isPart

/-- A position is known by labels of its steps that tell the parts of every value inside apart. -/
theorem Value.Holds.eq_of_labels {β : Type} {label : Step → β} (inScope : Value → Prop)
    (apart : ∀ value, inScope value → (value.parts.map fun part => label part.1).Nodup)
    (inner : ∀ value, inScope value → ∀ part ∈ value.parts, inScope part.2)
    {value part part' : Value} {position other : List Step} (scope : inScope value)
    (holds : value.Holds position part) (holds' : value.Holds other part')
    (same : position.map label = other.map label) : position = other ∧ part = part' := by
  induction holds generalizing other with
  | here value =>
      cases holds' with
      | here => exact ⟨rfl, rfl⟩
      | inside => cases same
  | inside isPart holds ih =>
      cases holds' with
      | here => cases same
      | inside isPart' holds' =>
          obtain ⟨sameStep, sameRest⟩ := List.cons.inj same
          have one := List.inj_on_of_nodup_map (apart _ scope) isPart isPart' sameStep
          obtain ⟨rfl, rfl⟩ := Prod.mk.inj one
          obtain ⟨samePosition, samePart⟩ := ih (inner _ scope _ isPart) holds' sameRest
          exact ⟨by rw [samePosition], samePart⟩

/-- The numbers of its steps tell a position. -/
theorem Value.Holds.eq_of_numbers {value part part' : Value} {position other : List Step}
    (holds : value.Holds position part) (holds' : value.Holds other part')
    (same : numbers position = numbers other) : position = other ∧ part = part' :=
  Value.Holds.eq_of_labels (fun _ => True) (fun value _ => value.nodup_numbers)
    (fun _ _ _ _ => trivial) trivial holds holds' same

/-- The texts of its steps tell a position, where no object has a key twice. -/
theorem Value.Holds.eq_of_texts {value part part' : Value} {position other : List Step}
    (distinct : value.Distinct) (holds : value.Holds position part)
    (holds' : value.Holds other part')
    (same : position.map Step.text = other.map Step.text) : position = other :=
  (Value.Holds.eq_of_labels Value.Distinct (fun _ distinct => distinct.nodup_texts)
    (fun _ distinct _ isPart => distinct.inner isPart) distinct holds holds' same).1

/-- There is one first misfit. -/
theorem FirstMisfit.unique {place : Location} {value : Value} {misfit misfit' : Misfit}
    (first : FirstMisfit place value misfit) (first' : FirstMisfit place value misfit') :
    misfit = misfit' := by
  obtain ⟨position, part, holds, isMisfit, least⟩ := first
  obtain ⟨position', part', holds', isMisfit', least'⟩ := first'
  have notNone {misfit : Misfit} {found : Option Misfit} (isSome : found = some misfit) :
      found ≠ none := by
    rw [isSome]
    exact Option.some_ne_none _
  have same : numbers position = numbers position' :=
    List.le_antisymm (List.not_lt.mp (least _ _ holds' (notNone isMisfit')))
      (List.not_lt.mp (least' _ _ holds (notNone isMisfit)))
  obtain ⟨rfl, rfl⟩ := holds.eq_of_numbers holds' same
  exact Option.some.inj (isMisfit.symm.trans isMisfit')

/-- **Different positions have different pointers.** -/
theorem Value.Holds.pointer_ne {value part part' : Value} {position other : List Step}
    (distinct : value.Distinct) (holds : value.Holds position part)
    (holds' : value.Holds other part') (differ : position ≠ other) :
    Json.Pointer.text (position.map Step.text) ≠ Json.Pointer.text (other.map Step.text) :=
  fun same => differ (holds.eq_of_texts distinct holds' (Json.Pointer.text_injective same))

/-! ## JSON values -/

/-- What a JSON value holds is a JSON value. -/
theorem Value.Holds.exists_json {json : Json} (wellFormed : json.WellFormed) {position : List Step}
    {part : Value} (holds : (ofJson json).Holds position part) :
    ∃ inner : Json, inner.WellFormed ∧ part = ofJson inner := by
  generalize isJson : ofJson json = value at holds
  induction holds generalizing json with
  | here => exact ⟨json, wellFormed, isJson.symm⟩
  | inside isPart _ ih =>
      subst isJson
      cases wellFormed with
      | leaf => cases isPart
      | array each =>
          rw [ofJson_array] at isPart
          obtain ⟨item, member, same⟩ := List.mem_map.mp (mem_of_mem_itemParts isPart)
          exact ih (each item member) same
      | object _ each =>
          rw [ofJson_object] at isPart
          obtain ⟨field, member, same⟩ := exists_mem_of_mem_fieldParts isPart
          obtain ⟨field', member', rfl⟩ := List.mem_map.mp member
          exact ih (each field' member') same

theorem misfit?_ofJson {json : Json} (wellFormed : json.WellFormed) (place : Location)
    (last : Option Step) : misfit? place last (ofJson json) = none := by
  cases wellFormed with
  | @leaf value finite =>
      cases value with
      | number value => exact if_pos finite
      | _ => rfl
  | array => rw [ofJson_array]; rfl
  | object => rw [ofJson_object]; rfl

/-- **A JSON value has a normal form, itself.** -/
theorem normal_ofJson {json : Json} (wellFormed : json.WellFormed) (place : Location) :
    normal place (ofJson json) = .ok json := by
  have fits : Fits place (ofJson json) := by
    intro position part holds
    obtain ⟨inner, isFormed, rfl⟩ := holds.exists_json wellFormed
    exact misfit?_ofJson isFormed _ _
  have tells := normal_tells place (ofJson json)
  cases result : normal place (ofJson json) with
  | ok form => rw [eq_of_normal_ofJson result]
  | error misfit =>
      rw [result] at tells
      exact absurd tells (not_firstMisfit_of_fits fits misfit)

end DocStore.Caller
