import Mathlib.Data.List.Basic
/-!
# One after another

Steps that change a state and tell something are made one after another (`oneByOne`).  What each of
them keeps is kept by all of them, and steps that agree on related states agree one after another.
-/

set_option autoImplicit false

namespace DocStore

/-- Steps one after another, and what each of them tells. -/
def oneByOne {ι ρ σ : Type} (step : ι → σ → ρ × σ) : List ι → σ → List ρ × σ
  | [], state => ([], state)
  | item :: rest, state =>
      let (first, state) := step item state
      let (others, state) := oneByOne step rest state
      (first :: others, state)

section

variable {ι ρ σ τ : Type} {step : ι → σ → ρ × σ}

theorem oneByOne_cons (item : ι) (rest : List ι) (state : σ) :
    oneByOne step (item :: rest) state
      = ((step item state).1 :: (oneByOne step rest (step item state).2).1,
        (oneByOne step rest (step item state).2).2) := rfl

theorem oneByOne_append (first rest : List ι) (state : σ) :
    oneByOne step (first ++ rest) state
      = ((oneByOne step first state).1 ++ (oneByOne step rest (oneByOne step first state).2).1,
        (oneByOne step rest (oneByOne step first state).2).2) := by
  induction first generalizing state with
  | nil => rfl
  | cons item first ih => rw [List.cons_append, oneByOne_cons, ih, oneByOne_cons, List.cons_append]

theorem length_oneByOne (items : List ι) (state : σ) :
    (oneByOne step items state).1.length = items.length := by
  induction items generalizing state with
  | nil => rfl
  | cons item rest ih => rw [oneByOne_cons, List.length_cons, ih, List.length_cons]

/-- Steps that are made from something are made one after another from all of it. -/
theorem oneByOne_map {κ : Type} (change : κ → ι) (items : List κ) (state : σ) :
    oneByOne step (items.map change) state = oneByOne (fun item => step (change item)) items state := by
  induction items generalizing state with
  | nil => rfl
  | cons item rest ih => rw [List.map_cons, oneByOne_cons, oneByOne_cons, ih]

/-- What each step keeps is kept by all of them. -/
theorem oneByOne_induction (holds : σ → Prop) {items : List ι}
    (each : ∀ item ∈ items, ∀ state, holds state → holds (step item state).2) {state : σ}
    (start : holds state) : holds (oneByOne step items state).2 := by
  induction items generalizing state with
  | nil => exact start
  | cons item rest ih =>
      exact ih (fun other member => each other (List.mem_cons_of_mem _ member))
        (each item List.mem_cons_self state start)

/-- Steps that tell the same on related states tell the same one after another. -/
theorem oneByOne_agrees {step' : ι → τ → ρ × τ} (related : σ → τ → Prop) {items : List ι}
    (each : ∀ item ∈ items, ∀ state state', related state state' →
      (step item state).1 = (step' item state').1
        ∧ related (step item state).2 (step' item state').2) {state : σ} {state' : τ}
    (start : related state state') :
    (oneByOne step items state).1 = (oneByOne step' items state').1
      ∧ related (oneByOne step items state).2 (oneByOne step' items state').2 := by
  induction items generalizing state state' with
  | nil => exact ⟨rfl, start⟩
  | cons item rest ih =>
      obtain ⟨same, goesOn⟩ := each item List.mem_cons_self state state' start
      obtain ⟨others, last⟩ :=
        ih (fun other member => each other (List.mem_cons_of_mem _ member)) goesOn
      exact ⟨by rw [oneByOne_cons, oneByOne_cons, same, others], last⟩

end

end DocStore
