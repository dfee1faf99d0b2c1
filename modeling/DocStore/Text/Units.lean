/-!
# Text measured in sixteen-bit units

A character outside the basic plane is written with two units of sixteen bits, every other
character with one.  Limits on the length of a text, cuts at a length and the order of keys and
file names are all stated in these units, so that `😀`, whose first unit is `0xD83D`, comes before
`U+FFFF` although its code point is larger.

`units_append` says that the units of a text are those of its parts in turn, and
`cut_eq_self` that a text which is short enough is not cut.
-/

set_option autoImplicit false

namespace DocStore.Text

/-- The units that write a character, in the order in which they are written. -/
def charUnits (character : Char) : List Nat :=
  let code := character.toNat
  if code < 0x10000 then [code]
  else [0xD800 + (code - 0x10000) / 0x400, 0xDC00 + (code - 0x10000) % 0x400]

/-- The units that write a text. -/
def units (text : List Char) : List Nat :=
  text.flatMap charUnits

@[simp] theorem units_nil : units [] = [] := rfl

@[simp] theorem units_append (first second : List Char) :
    units (first ++ second) = units first ++ units second := by
  simp [units]

/-- The length of a text in units. -/
def length (text : String) : Nat :=
  (units text.toList).length

/-- The texts of the single units of a text.  Half a character is written as the replacement
character. -/
def unitTexts (text : String) : List String :=
  text.toList.flatMap fun character =>
    match charUnits character with
    | [_] => [character.toString]
    | halves => halves.map fun _ => "\uFFFD"

/-- Whether the first text comes strictly before the second in the order of their units. -/
def before (first second : String) : Bool :=
  decide (units first.toList < units second.toList)

/-- The first `size` units of a list of characters.  A character that straddles the cut leaves half
of itself behind, which is written as the replacement character. -/
def cutChars : Nat → List Char → List Char
  | _, [] => []
  | size, character :: rest =>
      if (charUnits character).length ≤ size then
        character :: cutChars (size - (charUnits character).length) rest
      else if size = 0 then []
      else ['\uFFFD']

/-- The first `size` units of a text. -/
def cut (size : Nat) (text : String) : String :=
  String.ofList (cutChars size text.toList)

theorem cutChars_eq_self (text : List Char) :
    ∀ {size : Nat}, (units text).length ≤ size → cutChars size text = text := by
  induction text with
  | nil => intro size _; rfl
  | cons character rest ih =>
      intro size short
      have split : (units (character :: rest)).length
          = (charUnits character).length + (units rest).length := by
        simp [units]
      have fits : (charUnits character).length ≤ size := by omega
      simp only [cutChars, if_pos fits]
      rw [ih (by omega)]

/-- A text that is short enough is not cut. -/
theorem cut_eq_self {size : Nat} {text : String} (short : length text ≤ size) :
    cut size text = text := by
  simp [cut, cutChars_eq_self text.toList short]

end DocStore.Text
