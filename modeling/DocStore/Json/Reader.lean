import DocStore.Json.Numeral
import DocStore.Json.Quoted
import DocStore.Json.Tree
/-!
# Reading JSON

`Json.parse?` reads a text that holds one value between blanks.  A key that occurs twice in an
object keeps its first place and its last value, and fields are listed in the order of
`DocStore.Json.Fields`.  The reader descends once for every opening bracket and every comma, so a
budget of twice the length of the text is enough.
-/

set_option autoImplicit false

namespace DocStore.Json

namespace Reader

/-- The blanks that may stand between the parts of a value. -/
def isSpace (character : Char) : Bool :=
  character == ' ' || character == '\n' || character == '\r' || character == '\t'

/-- The text after the blanks at its head. -/
def skip (text : List Char) : List Char :=
  text.dropWhile isSpace

mutual
/-- The value at the head of a text without blanks before it, and what follows it. -/
def value? : Nat → List Char → Option (Json × List Char)
  | 0, _ => none
  | budget + 1, text =>
      match text with
      | 'n' :: 'u' :: 'l' :: 'l' :: rest => some (null, rest)
      | 't' :: 'r' :: 'u' :: 'e' :: rest => some (boolean true, rest)
      | 'f' :: 'a' :: 'l' :: 's' :: 'e' :: rest => some (boolean false, rest)
      | '"' :: rest => do
          let (content, rest) ← Quoted.decode? rest
          return (string (String.ofList content), rest)
      | '[' :: rest =>
          match skip rest with
          | ']' :: rest => some (.array [], rest)
          | rest => do
              let (items, rest) ← items? budget rest
              return (.array items, rest)
      | '{' :: rest =>
          match skip rest with
          | '}' :: rest => some (.object [], rest)
          | rest => do
              let (fields, rest) ← fields? budget rest
              return (.object (Fields.ofList fields), rest)
      | text => do
          let (decimal, rest) ← Numeral.decimal? text
          return (number (Number.ofDecimal decimal), rest)

/-- The items up to the closing bracket, at least one, and what follows the bracket. -/
def items? : Nat → List Char → Option (List Json × List Char)
  | 0, _ => none
  | budget + 1, text => do
      let (item, rest) ← value? budget text
      match skip rest with
      | ',' :: rest =>
          let (items, rest) ← items? budget (skip rest)
          return (item :: items, rest)
      | ']' :: rest => return ([item], rest)
      | _ => none

/-- The fields up to the closing brace, at least one, and what follows the brace. -/
def fields? : Nat → List Char → Option (List (String × Json) × List Char)
  | 0, _ => none
  | budget + 1, text =>
      match text with
      | '"' :: rest => do
          let (key, rest) ← Quoted.decode? rest
          match skip rest with
          | ':' :: rest =>
              let (value, rest) ← value? budget (skip rest)
              match skip rest with
              | ',' :: rest =>
                  let (fields, rest) ← fields? budget (skip rest)
                  return ((String.ofList key, value) :: fields, rest)
              | '}' :: rest => return ([(String.ofList key, value)], rest)
              | _ => none
          | _ => none
      | _ => none
end

end Reader

/-- The value that a text holds. -/
def parse? (text : String) : Option Json := do
  let characters := text.toList
  let (value, rest) ← Reader.value? (2 * characters.length + 2) (Reader.skip characters)
  if (Reader.skip rest).isEmpty then some value else none

end DocStore.Json
