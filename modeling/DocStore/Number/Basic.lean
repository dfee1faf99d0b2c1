/-!
# Double precision numbers

A finite double is a sign and a whole number of steps of `2 ^ -1074`, the smallest positive double.
A number of steps belongs to a double when its binary form has at most 53 significant digits and the
value is below `2 ^ 1024`; `IsDouble` says so.  Every double has exactly one such description, so
equality of descriptions is equality of doubles, except that the two zeros are told apart and that
the result of an undefined computation equals nothing.

`nearestSteps` rounds a quotient to the nearest double, a half going to the even neighbour.  Reading
a decimal is one call of it, whatever the size of the decimal.
-/

set_option autoImplicit false

namespace DocStore

/-- How many binary digits the number of steps of the largest double has. -/
def maxStepBits : Nat :=
  1024 + 1074

/-- How many steps make one. -/
def stepsOfOne : Nat :=
  Nat.pow 2 1074

/-- How many steps make `2 ^ 1024`, the first power of two out of range. -/
def stepLimit : Nat :=
  Nat.pow 2 maxStepBits

theorem stepLimit_pos : 0 < stepLimit := by
  decide +kernel

/-- Whether a number of steps of `2 ^ -1074` is the size of a double. -/
def IsDouble (steps : Nat) : Prop :=
  steps < stepLimit ∧ steps % Nat.pow 2 (steps.log2 - 52) = 0

instance (steps : Nat) : Decidable (IsDouble steps) :=
  inferInstanceAs (Decidable (_ ∧ _))

/-- The size of a finite double, in steps of `2 ^ -1074`. -/
structure Magnitude where
  /-- How many steps of `2 ^ -1074` the size is. -/
  steps : Nat
  /-- The steps are those of a double. -/
  isDouble : IsDouble steps
deriving DecidableEq

/-- A double. -/
inductive Number where
  /-- A finite number; zero has both signs. -/
  | finite (negative : Bool) (magnitude : Magnitude)
  /-- A number too large for a finite double. -/
  | infinite (negative : Bool)
  /-- The result of an undefined computation. -/
  | undefined
deriving DecidableEq

/-- The quotient rounded to a whole number, a half going to the even neighbour. -/
def roundHalfEven (numerator denominator : Nat) : Nat :=
  let quotient := numerator / denominator
  let twice := 2 * (numerator % denominator)
  if twice < denominator then quotient
  else if denominator < twice then quotient + 1
  else quotient + quotient % 2

/-- The steps of the double nearest to a quotient of steps: the quotient is rounded to as many
binary digits as its size leaves to a double. -/
def nearestSteps (numerator denominator : Nat) : Nat :=
  let grid := Nat.pow 2 ((numerator / denominator).log2 - 52)
  roundHalfEven numerator (denominator * grid) * grid

namespace Magnitude

/-- The size nothing. -/
def zero : Magnitude :=
  ⟨0, stepLimit_pos, Nat.zero_mod _⟩

/-- The double with the given steps, if there is one. -/
def ofSteps? (steps : Nat) : Option Magnitude :=
  if isDouble : IsDouble steps then some ⟨steps, isDouble⟩ else none

/-- The double nearest to a quotient of units, or nothing when it is out of range. -/
def nearest? (numerator denominator : Nat) : Option Magnitude :=
  ofSteps? (nearestSteps (numerator * stepsOfOne) denominator)

/-- The whole part of a size. -/
def floor (magnitude : Magnitude) : Nat :=
  magnitude.steps / stepsOfOne

end Magnitude

namespace Number

/-- Zero without a sign. -/
def zero : Number := .finite false .zero

/-- Numbers are equal as numbers when they are the same double or both zero; an undefined one is
equal to none. -/
def same : Number → Number → Bool
  | .finite negative magnitude, .finite negative' magnitude' =>
      magnitude == magnitude' && (negative == negative' || magnitude.steps == 0)
  | .infinite negative, .infinite negative' => negative == negative'
  | _, _ => false

/-- Whether a number is finite. -/
def isFinite : Number → Bool
  | .finite _ _ => true
  | .infinite _ | .undefined => false

/-- Whether a number is above zero. -/
def isPositive : Number → Bool
  | .finite negative magnitude => !negative && magnitude.steps != 0
  | .infinite negative => !negative
  | .undefined => false

/-- Whether a number is below or equal to zero. -/
def isNonpositive : Number → Bool
  | .finite negative magnitude => negative || magnitude.steps == 0
  | .infinite negative => negative
  | .undefined => false

/-- The double nearest to a whole number. -/
def ofNat (value : Nat) : Number :=
  match Magnitude.nearest? value 1 with
  | some magnitude => .finite false magnitude
  | none => .infinite false

/-- The double nearest to a whole number with a sign. -/
def ofInt : Int → Number
  | .ofNat value => ofNat value
  | .negSucc value =>
      match ofNat (value + 1) with
      | .finite _ magnitude => .finite true magnitude
      | _ => .infinite true

/-- Whether a number is below another; nothing is below or above an undefined one. -/
def lt : Number → Number → Bool
  | .undefined, _ | _, .undefined => false
  | .infinite negative, .infinite negative' => negative && !negative'
  | .infinite negative, .finite _ _ => negative
  | .finite _ _, .infinite negative => !negative
  | .finite negative magnitude, .finite negative' magnitude' =>
      let size (negative : Bool) (magnitude : Magnitude) : Int :=
        if negative then -(magnitude.steps : Int) else magnitude.steps
      decide (size negative magnitude < size negative' magnitude')

/-- Whether a whole number exceeds a number. -/
def ltNat : Number → Nat → Bool
  | .finite false magnitude, value => magnitude.steps < value * stepsOfOne
  | .finite true magnitude, value => 0 < value || magnitude.steps != 0
  | .infinite negative, _ => negative
  | .undefined, _ => false

/-- The whole part of a number that is not negative; nothing of one that is not finite. -/
def floor? : Number → Option Nat
  | .finite true _ => some 0
  | .finite false magnitude => some magnitude.floor
  | .infinite true => some 0
  | .infinite false | .undefined => none

/-- The least whole number that is not below a number; nothing for infinity. -/
def ceil? (value : Number) : Option Nat :=
  value.floor?.map fun whole =>
    if (ofNat whole).same value ∨ value.isNonpositive then whole else whole + 1

/-- The whole part of a number with its sign; nothing of one that is not finite. -/
def whole? : Number → Option Int
  | .finite negative magnitude =>
      some (if negative then -(magnitude.floor : Int) else magnitude.floor)
  | .infinite _ | .undefined => none

/-- The greatest whole number that is not above the quotient of a number by a whole number; nothing
of one that is not finite. -/
def floorDiv? (value : Number) (divisor : Nat) : Option Int :=
  match value with
  | .finite negative magnitude =>
      let size : Int := magnitude.steps
      some ((if negative then -size else size) / (stepsOfOne * divisor : Nat))
  | .infinite _ | .undefined => none

end Number

end DocStore
