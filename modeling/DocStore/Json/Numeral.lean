import DocStore.Json.Fields
import DocStore.Number.Decimal
/-!
# Written numbers

A written number is an optional minus sign, a whole part without superfluous zeros, and optionally
a fraction and a power of ten, both with at least one digit.  `decimal?` reads the longest one at
the head of a text and gives its exact decimal value.
-/

set_option autoImplicit false

namespace DocStore.Json.Numeral

/-- A digit of the decimal system. -/
def isDigit (character : Char) : Bool :=
  '0' ≤ character && character ≤ '9'

/-- The digits at the head of a text, and what follows them. -/
def digits (text : List Char) : List Char × List Char :=
  (text.takeWhile isDigit, text.dropWhile isDigit)

/-- A minus sign at the head of a text. -/
def sign : List Char → Bool × List Char
  | '-' :: rest => (true, rest)
  | text => (false, text)

/-- The whole part: zero alone, or digits that do not start with zero. -/
def whole? : List Char → Option (List Char × List Char)
  | '0' :: rest => some (['0'], rest)
  | text =>
      match digits text with
      | ([], _) => none
      | (first :: others, rest) => some (first :: others, rest)

/-- The digits after a point; without a point there are none. -/
def fraction? : List Char → Option (List Char × List Char)
  | '.' :: text =>
      match digits text with
      | ([], _) => none
      | (first :: others, rest) => some (first :: others, rest)
  | text => some ([], text)

/-- The value of the digits of an exponent after its sign. -/
def exponentValue? (negative : Bool) (text : List Char) : Option (Int × List Char) :=
  match digits text with
  | ([], _) => none
  | (first :: others, rest) =>
      let size : Int := Fields.digitsValue (first :: others)
      some (if negative then -size else size, rest)

/-- The power of ten; without one it is zero. -/
def exponent? : List Char → Option (Int × List Char)
  | 'e' :: '-' :: text | 'E' :: '-' :: text => exponentValue? true text
  | 'e' :: '+' :: text | 'E' :: '+' :: text => exponentValue? false text
  | 'e' :: text | 'E' :: text => exponentValue? false text
  | text => some (0, text)

/-- The number at the head of a text, and what follows it. -/
def decimal? (text : List Char) : Option (Decimal × List Char) := do
  let (negative, rest) := sign text
  let (whole, rest) ← whole? rest
  let (fraction, rest) ← fraction? rest
  let (exponent, rest) ← exponent? rest
  return (⟨negative, Fields.digitsValue (whole ++ fraction), exponent - fraction.length⟩, rest)

end DocStore.Json.Numeral
