import DocStore.Json.Tree
import DocStore.Text.Literal
/-!
# Values on a console

A console shows a text as it is and every other value in a form for readers.  Within a value, texts
are literals and keys stand without quotes where they are words.  What an array or object holds is
shown on one line where there is room, and else on a line each; what is nested too deep is shown by
its kind alone.
-/

set_option autoImplicit false

namespace DocStore.Json

/-- How wide a line may get. -/
def displayWidth : Nat := 80

/-- How many levels are shown below the outermost. -/
def displayDepth : Nat := 2

/-- Whether a key is a word. -/
def isWord (key : String) : Bool :=
  match key.toList with
  | [] => false
  | first :: rest =>
      let isLetter (character : Char) : Bool := character.isAlpha || character == '_'
      isLetter first && rest.all fun character => isLetter character || character.isDigit

/-- How a key is shown. -/
def displayKey (key : String) : String :=
  if key = "__proto__" then "['__proto__']"
  else if isWord key then key
  else Text.literalPart key.toList

/-- How a number is shown, with the sign of a zero. -/
def displayNumber : Number → String
  | .finite true magnitude =>
      if magnitude.steps = 0 then "-0" else (Number.finite true magnitude).text
  | number => number.text

/-- How a scalar is shown within a value. -/
def displayScalar : Scalar → String
  | .null => "null"
  | .boolean truth => toString truth
  | .number number => displayNumber number
  | .string text => Text.literal text

/-- Parts between brackets, on one line or on lines of their own, which are indented by as much as
the value and two more. -/
def displayParts (indent : Nat) (opening closing : String) (parts : List String) : String :=
  let width := 2 * parts.length + indent + 11 + (parts.map Text.length).foldl (· + ·) 0
  if width ≤ displayWidth && parts.all fun part => !part.contains '\n' then
    opening ++ " " ++ String.intercalate ", " parts ++ " " ++ closing
  else
    let line := "\n" ++ String.ofList (List.replicate indent ' ')
    opening ++ line ++ "  " ++ String.intercalate ("," ++ line ++ "  ") parts ++ line ++ closing

mutual
/-- How a value is shown within another at a depth, on lines that are indented. -/
def displayAt (depth indent : Nat) : Json → String
  | .leaf value => displayScalar value
  | .array items =>
      if items.isEmpty then "[]"
      else if displayDepth < depth then "[Array]"
      else displayParts indent "[" "]" (displayItems (depth + 1) (indent + 2) items)
  | .object fields =>
      if fields.isEmpty then "\x7b\x7d"
      else if displayDepth < depth then "[Object]"
      else displayParts indent "\x7b" "\x7d" (displayFields (depth + 1) (indent + 2) fields)

/-- How the items of an array are shown. -/
def displayItems (depth indent : Nat) : List Json → List String
  | [] => []
  | item :: rest => displayAt depth indent item :: displayItems depth indent rest

/-- How the fields of an object are shown. -/
def displayFields (depth indent : Nat) : List (String × Json) → List String
  | [] => []
  | (key, value) :: rest =>
      (displayKey key ++ ": " ++ displayAt depth indent value)
        :: displayFields depth indent rest
end

/-- How a console shows a value. -/
def display : Json → String
  | .leaf (.string text) => text
  | value => displayAt 0 0 value

end DocStore.Json
