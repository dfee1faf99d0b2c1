import DocStore.Json.Pointer
/-!
# Pointers tell positions

A step is written without a solidus, and its tildes are escaped together with its solidi, so every
step can be read off its text (`readStep_escape`) and the steps of a position off its pointer
(`steps_text`): no two positions have one pointer (`text_injective`).  Only the root has the empty
pointer, so what a message says about the root is not said about a position below it
(`phrase_below`).
-/

set_option autoImplicit false

namespace DocStore.Json

namespace Pointer

theorem ne_solidus_of_mem_escapeChar {written character : Char}
    (member : character ∈ escapeChar written) : character ≠ '/' := by
  unfold escapeChar at member
  split at member
  · simp only [List.mem_cons, List.not_mem_nil, or_false] at member
    rcases member with rfl | rfl <;> decide
  next =>
    split at member
    · simp only [List.mem_cons, List.not_mem_nil, or_false] at member
      rcases member with rfl | rfl <;> decide
    next notSolidus =>
      obtain rfl := List.mem_singleton.mp member
      exact notSolidus

theorem ne_solidus_of_mem {step : List Char} {character : Char}
    (member : character ∈ step.flatMap escapeChar) : character ≠ '/' := by
  obtain ⟨written, _, member⟩ := List.mem_flatMap.mp member
  exact ne_solidus_of_mem_escapeChar member

/-- A character as it is written once the solidi have been read. -/
def halfEscaped (character : Char) : List Char :=
  if character = '~' then ['~', '0'] else [character]

theorem replaceMarked_of_ne {mark character other : Char} (noTilde : other ≠ '~')
    (rest : List Char) :
    replaceMarked mark character (other :: rest) = other :: replaceMarked mark character rest := by
  rw [replaceMarked]
  exact fun _ _ same _ => noTilde same

/-- The escapes of solidi are read, and those of tildes stay as they are. -/
theorem replaceMarked_solidi (step : List Char) :
    replaceMarked '1' '/' (step.flatMap escapeChar) = step.flatMap halfEscaped := by
  induction step with
  | nil => rfl
  | cons character rest ih =>
      rw [List.flatMap_cons, List.flatMap_cons, escapeChar, halfEscaped]
      split
      next tilde =>
        show replaceMarked '1' '/' ('~' :: '0' :: rest.flatMap escapeChar) = _
        rw [replaceMarked, if_neg (by decide), replaceMarked_of_ne (by decide), ih]
        rfl
      next noTilde =>
        split
        next solidus =>
          show replaceMarked '1' '/' ('~' :: '1' :: rest.flatMap escapeChar) = _
          rw [replaceMarked, if_pos rfl, ih, solidus]
          rfl
        next => rw [List.singleton_append, replaceMarked_of_ne noTilde, ih]; rfl

theorem replaceMarked_tildes (step : List Char) :
    replaceMarked '0' '~' (step.flatMap halfEscaped) = step := by
  induction step with
  | nil => rfl
  | cons character rest ih =>
      rw [List.flatMap_cons, halfEscaped]
      split
      next tilde =>
        show replaceMarked '0' '~' ('~' :: '0' :: rest.flatMap halfEscaped) = _
        rw [replaceMarked, if_pos rfl, ih, tilde]
      next noTilde => rw [List.singleton_append, replaceMarked_of_ne noTilde, ih]

/-- A step is read as it was before it was escaped. -/
theorem readStep_escape (step : String) : readStep (step.toList.flatMap escapeChar) = step := by
  rw [readStep, replaceMarked_solidi, replaceMarked_tildes, String.ofList_toList]

/-- Text without a solidus belongs to the first of the pieces that follow. -/
theorem pieces_append {piece rest first : List Char} {others : List (List Char)}
    (noSolidus : ∀ character ∈ piece, character ≠ '/') (isRest : pieces rest = first :: others) :
    pieces (piece ++ rest) = (piece ++ first) :: others := by
  induction piece with
  | nil => exact isRest
  | cons character piece ih =>
      have inside := ih fun other member => noSolidus other (List.mem_cons_of_mem _ member)
      rw [List.cons_append, pieces.eq_3 _ _ (noSolidus character (by simp)), inside]
      rfl

theorem pieces_chars (steps : List String) :
    pieces (chars steps) = [] :: steps.map fun step => step.toList.flatMap escapeChar := by
  induction steps with
  | nil => rfl
  | cons step rest ih =>
      show pieces ('/' :: (step.toList.flatMap escapeChar ++ chars rest)) = _
      rw [pieces, pieces_append (fun _ => ne_solidus_of_mem) ih, List.append_nil, List.map_cons]

/-- **The steps of a position are read off its pointer.** -/
theorem steps_text (position : List String) : steps (text position) = position := by
  rw [steps, text, String.toList_ofList, pieces_chars, List.drop_one, List.tail_cons, List.map_map]
  exact List.map_id'' readStep_escape position

/-- **A pointer tells its position.** -/
theorem text_injective : Function.Injective text :=
  Function.LeftInverse.injective steps_text

theorem text_ne_empty {steps : List String} (nonempty : steps ≠ []) : text steps ≠ "" :=
  fun empty => nonempty (text_injective empty)

end Pointer

/-- Messages name a position below the root by its pointer. -/
theorem Location.phrase_below {steps : List String} (nonempty : steps ≠ []) :
    Location.phrase ⟨"", steps⟩ = Pointer.text steps := by
  have same : Location.text ⟨"", steps⟩ = Pointer.text steps := String.empty_append
  rw [phrase, same, if_neg (Pointer.text_ne_empty nonempty)]

end DocStore.Json
