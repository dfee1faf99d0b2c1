import DocStore.Number.Decimal
/-!
# The text of a number

A number is written with the fewest digits that read back to it.  Values from `10 ^ -7` up to, but
not including, `10 ^ 21` are written without an exponent; all others with one digit before the
point and a signed exponent.  Negative zero is written like zero.
-/

set_option autoImplicit false

namespace DocStore.Number

/-- Decimal positions of the point, counted from the first digit, that are written without an
exponent: from `-6`, exclusive, to `21`. -/
def plainPoint (point : Int) : Bool :=
  decide (-6 < point) && decide (point ≤ 21)

/-- The digits without the zeros at their end; the count of zeros goes to the exponent. -/
def withoutTrailingZeros : List Char → Int → List Char × Int
  | reversed, exponent =>
      let zeros := (reversed.takeWhile (· == '0')).length
      ((reversed.drop zeros).reverse, exponent + zeros)

/-- Digits with the decimal point after the first `point` of them. -/
def layOut (digits : List Char) (point : Int) : List Char :=
  let count := digits.length
  if plainPoint point then
    if (count : Int) ≤ point then digits ++ List.replicate (point.toNat - count) '0'
    else if 0 < point then digits.take point.toNat ++ '.' :: digits.drop point.toNat
    else '0' :: '.' :: List.replicate (-point).toNat '0' ++ digits
  else
    let exponent := point - 1
    let fraction := if count = 1 then [] else '.' :: digits.drop 1
    let sign := if exponent < 0 then '-' else '+'
    digits.take 1 ++ fraction ++ 'e' :: sign :: Nat.toDigits 10 exponent.natAbs

/-- The text of a size. -/
def magnitudeChars (magnitude : Magnitude) : List Char :=
  if magnitude.steps = 0 then ['0']
  else
    let (value, exponent) := magnitude.shortest
    let (digits, exponent) := withoutTrailingZeros (Nat.toDigits 10 value).reverse exponent
    layOut digits (exponent + digits.length)

/-- The text of a number. -/
def chars : Number → List Char
  | .finite negative magnitude =>
      if negative && magnitude.steps != 0 then '-' :: magnitudeChars magnitude
      else magnitudeChars magnitude
  | .infinite negative =>
      (if negative then ['-'] else []) ++ "Infinity".toList
  | .undefined => "NaN".toList

/-- The text of a number. -/
def text (number : Number) : String :=
  String.ofList number.chars

end DocStore.Number
