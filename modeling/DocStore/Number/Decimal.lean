import DocStore.Number.Basic
/-!
# Decimals and the shortest decimal of a double

A decimal is a sign, a whole number and a power of ten.  `Number.ofDecimal` is the double nearest
to it.  `Magnitude.shortest` is the decimal of fewest digits that this reading takes back to the
double, and among those of equally few digits the nearest one; `readsBack_shortest?` says that what
the search finds does read back.
-/

set_option autoImplicit false

namespace DocStore

/-- The value `digits · 10 ^ exponent` with a sign. -/
structure Decimal where
  /-- Whether the value carries a minus sign. -/
  negative : Bool
  /-- The digits, read as a whole number. -/
  digits : Nat
  /-- The power of ten that the digits are multiplied by. -/
  exponent : Int
deriving DecidableEq

/-- How many decimal digits a whole number has.  Those that its binary digits assure, at 0.30102 for
each, which is a little less than the logarithm of two, are counted without writing them. -/
def decimalLength (value : Nat) : Nat :=
  let assured := value.log2 * 30102 / 100000
  assured + (Nat.toDigits 10 (value / Nat.pow 10 assured)).length

/-- The size nearest to `digits · 10 ^ exponent`, or nothing when it is out of range.  Values that
lie far outside the range are settled by their number of digits alone. -/
def Magnitude.ofDecimal? (digits : Nat) (exponent : Int) : Option Magnitude :=
  if digits = 0 then some .zero
  else if 400 < exponent then none
  else if exponent + decimalLength digits < -400 then some .zero
  else if 0 ≤ exponent then Magnitude.nearest? (digits * Nat.pow 10 exponent.toNat) 1
  else Magnitude.nearest? digits (Nat.pow 10 (-exponent).toNat)

/-- The double nearest to a decimal. -/
def Number.ofDecimal (decimal : Decimal) : Number :=
  match Magnitude.ofDecimal? decimal.digits decimal.exponent with
  | some magnitude => .finite decimal.negative magnitude
  | none => .infinite decimal.negative

namespace Magnitude

/-- A size is this whole number times `10 ^ -1074`. -/
def exactDigits (magnitude : Magnitude) : Nat :=
  magnitude.steps * Nat.pow 5 1074

/-- Whether reading a decimal gives the size. -/
def readsBack (magnitude : Magnitude) (decimal : Nat × Int) : Bool :=
  ofDecimal? decimal.1 decimal.2 == some magnitude

/-- The nearest decimal of `count` digits that reads back, if one of the two neighbours of the size
among the decimals of that many digits does.  Of two equally near ones the even one is taken. -/
def shortest? (magnitude : Magnitude) (count : Nat) : Option (Nat × Int) :=
  let exact := magnitude.exactDigits
  let dropped := decimalLength exact - count
  let scale := Nat.pow 10 dropped
  let low := exact / scale
  let lower : Nat × Int := (low, (dropped : Int) - 1074)
  let upper : Nat × Int := (low + 1, (dropped : Int) - 1074)
  let distance := 2 * (exact % scale)
  let lowerFirst := distance < scale || (distance == scale && low % 2 == 0)
  let candidates := if lowerFirst then [lower, upper] else [upper, lower]
  candidates.find? magnitude.readsBack

theorem readsBack_shortest? {magnitude : Magnitude} {count : Nat} {decimal : Nat × Int}
    (found : magnitude.shortest? count = some decimal) : magnitude.readsBack decimal = true :=
  List.find?_some found

/-- The decimal of fewest digits that reads back; seventeen digits always suffice, and past them
the exact decimal is taken. -/
def shortest (magnitude : Magnitude) : Nat × Int :=
  ((List.range 17).findSome? fun index => magnitude.shortest? (index + 1)).getD
    (magnitude.exactDigits, -1074)

end Magnitude

end DocStore
