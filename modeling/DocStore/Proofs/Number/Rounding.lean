import DocStore.Number.Decimal
import Mathlib.Algebra.Order.Ring.Nat
import Mathlib.Tactic.Ring
/-!
# What a decimal is rounded to

Rounding a quotient depends on the ratio alone (`nearestSteps_congr`) and keeps every double
(`nearestSteps_one`).  The shortcuts by which `Magnitude.ofDecimal?` settles values far outside the
range are not seen: it always is the double nearest to the value (`Magnitude.ofDecimal?_eq`).  So
zeros may move between the digits and the power of ten (`Magnitude.ofDecimal?_mul_pow`), and the
decimal that is chosen for a size reads back to it, also where the search for a short one finds none
(`Magnitude.ofDecimal?_shortest`).
-/

set_option autoImplicit false

namespace DocStore

/-! ## Rounding a quotient -/

theorem roundHalfEven_mul (numerator denominator : Nat) {factor : Nat} (positive : 0 < factor) :
    roundHalfEven (numerator * factor) (denominator * factor)
      = roundHalfEven numerator denominator := by
  have below : 2 * (numerator % denominator * factor) < denominator * factor
      ↔ 2 * (numerator % denominator) < denominator := by
    rw [← mul_assoc]
    exact Nat.mul_lt_mul_right positive
  have above : denominator * factor < 2 * (numerator % denominator * factor)
      ↔ denominator < 2 * (numerator % denominator) := by
    rw [← mul_assoc]
    exact Nat.mul_lt_mul_right positive
  simp only [roundHalfEven, Nat.mul_div_mul_right _ _ positive, Nat.mul_mod_mul_right, below, above]

theorem nearestSteps_mul (numerator denominator : Nat) {factor : Nat} (positive : 0 < factor) :
    nearestSteps (numerator * factor) (denominator * factor)
      = nearestSteps numerator denominator := by
  simp only [nearestSteps, Nat.mul_div_mul_right _ _ positive]
  rw [Nat.mul_right_comm, roundHalfEven_mul _ _ positive]

/-- Equal ratios are rounded to the same double. -/
theorem nearestSteps_congr {numerator denominator numerator' denominator' : Nat}
    (positive : 0 < denominator) (positive' : 0 < denominator')
    (ratio : numerator * denominator' = numerator' * denominator) :
    nearestSteps numerator denominator = nearestSteps numerator' denominator' := by
  calc nearestSteps numerator denominator
      = nearestSteps (numerator * denominator') (denominator * denominator') :=
        (nearestSteps_mul _ _ positive').symm
    _ = nearestSteps (numerator' * denominator) (denominator' * denominator) := by
        rw [ratio, Nat.mul_comm denominator]
    _ = nearestSteps numerator' denominator' := nearestSteps_mul _ _ positive

/-- What divides without remainder is not rounded. -/
theorem roundHalfEven_of_mod_eq_zero {numerator denominator : Nat} (positive : 0 < denominator)
    (exact : numerator % denominator = 0) :
    roundHalfEven numerator denominator = numerator / denominator := by
  simp [roundHalfEven, exact, positive]

theorem roundHalfEven_of_twice_lt {numerator denominator : Nat}
    (small : 2 * numerator < denominator) : roundHalfEven numerator denominator = 0 := by
  have below : numerator < denominator := by omega
  simp [roundHalfEven, Nat.div_eq_of_lt below, Nat.mod_eq_of_lt below, small]

theorem div_le_roundHalfEven (numerator denominator : Nat) :
    numerator / denominator ≤ roundHalfEven numerator denominator := by
  simp only [roundHalfEven]
  split
  · exact Nat.le_refl _
  · split <;> omega

/-- A double is its own nearest double. -/
theorem nearestSteps_one {steps : Nat} (isDouble : IsDouble steps) : nearestSteps steps 1 = steps := by
  have positive : 0 < Nat.pow 2 (steps.log2 - 52) := Nat.pow_pos (by decide)
  have divides : Nat.pow 2 (steps.log2 - 52) ∣ steps := Nat.dvd_of_mod_eq_zero isDouble.2
  simp only [nearestSteps, Nat.div_one, Nat.one_mul]
  rw [roundHalfEven_of_mod_eq_zero positive isDouble.2, Nat.div_mul_cancel divides]

/-- Less than half a step is rounded to nothing. -/
theorem nearestSteps_of_twice_lt {numerator denominator : Nat}
    (small : 2 * numerator < denominator) : nearestSteps numerator denominator = 0 := by
  have below : numerator / denominator = 0 := Nat.div_eq_of_lt (by omega)
  simp [nearestSteps, below, roundHalfEven_of_twice_lt small]

/-- Rounding does not go below a power of two. -/
theorem pow_le_nearestSteps {numerator denominator : Nat} (bits : Nat)
    (large : 2 ^ bits ≤ numerator / denominator) : 2 ^ bits ≤ nearestSteps numerator denominator := by
  generalize quotient : numerator / denominator = whole at large
  have nonzero : whole ≠ 0 := (lt_of_lt_of_le (Nat.two_pow_pos bits) large).ne'
  have least : bits ≤ whole.log2 := (Nat.le_log2 nonzero).mpr large
  obtain ⟨high, split⟩ := Nat.exists_eq_add_of_le (Nat.sub_le whole.log2 52)
  have gridPositive : 0 < 2 ^ (whole.log2 - 52) := Nat.two_pow_pos _
  have highPart : 2 ^ high ≤ whole / 2 ^ (whole.log2 - 52) := by
    rw [Nat.le_div_iff_mul_le gridPositive, ← Nat.pow_add, Nat.add_comm, ← split]
    exact Nat.log2_self_le nonzero
  simp only [nearestSteps, quotient, Nat.pow_eq]
  calc 2 ^ bits ≤ 2 ^ whole.log2 := Nat.pow_le_pow_right (by decide) least
    _ = 2 ^ high * 2 ^ (whole.log2 - 52) := by
        rw [← Nat.pow_add, Nat.add_comm high]
        exact congrArg (2 ^ ·) split
    _ ≤ whole / 2 ^ (whole.log2 - 52) * 2 ^ (whole.log2 - 52) :=
        Nat.mul_le_mul_right _ highPart
    _ ≤ roundHalfEven numerator (denominator * 2 ^ (whole.log2 - 52))
          * 2 ^ (whole.log2 - 52) := by
        refine Nat.mul_le_mul_right _ ?_
        rw [← quotient, Nat.div_div_eq_div_mul, quotient]
        exact div_le_roundHalfEven _ _

/-! ## The number of digits -/

/-- The number of digits of a value bounds it. -/
theorem lt_pow_decimalLength (value : Nat) : value < 10 ^ decimalLength value := by
  simp only [decimalLength, Nat.pow_eq]
  generalize value.log2 * 30102 / 100000 = assured
  have positive : 0 < 10 ^ assured := Nat.pow_pos (by decide)
  have short : value / 10 ^ assured < 10 ^ (Nat.toDigits 10 (value / 10 ^ assured)).length :=
    (Nat.length_toDigits_le_iff (by decide) Nat.length_toDigits_pos).mp (Nat.le_refl _)
  rw [Nat.pow_add, Nat.mul_comm]
  exact (Nat.div_lt_iff_lt_mul positive).mp short

namespace Magnitude

theorem ofSteps?_steps (magnitude : Magnitude) : ofSteps? magnitude.steps = some magnitude := by
  simp [ofSteps?, magnitude.isDouble]

theorem ofSteps?_zero : ofSteps? 0 = some zero :=
  ofSteps?_steps zero

theorem ofSteps?_of_le {steps : Nat} (large : stepLimit ≤ steps) : ofSteps? steps = none := by
  have outside : ¬ IsDouble steps := fun isDouble => by
    have inside := isDouble.1
    omega
  simp [ofSteps?, outside]

/-! ## Reading a decimal -/

theorem nearest?_of_le {numerator denominator : Nat}
    (large : stepLimit ≤ numerator * stepsOfOne / denominator) :
    nearest? numerator denominator = none :=
  ofSteps?_of_le (pow_le_nearestSteps maxStepBits large)

theorem nearest?_of_lt {numerator denominator : Nat}
    (small : 2 * (numerator * stepsOfOne) < denominator) :
    nearest? numerator denominator = some zero := by
  rw [nearest?, nearestSteps_of_twice_lt small, ofSteps?_zero]

/-- Reading a decimal gives the double nearest to its value, whatever its size. -/
theorem ofDecimal?_eq (digits : Nat) (exponent : Int) :
    ofDecimal? digits exponent
      = nearest? (digits * 10 ^ exponent.toNat) (10 ^ (-exponent).toNat) := by
  unfold ofDecimal?
  split
  next none =>
    subst none
    refine (nearest?_of_lt ?_).symm
    rw [Nat.zero_mul, Nat.zero_mul, Nat.mul_zero]
    exact Nat.pow_pos (by decide)
  next some =>
  split
  next huge =>
    refine (nearest?_of_le ?_).symm
    have whole : (-exponent).toNat = 0 := by omega
    have most : 400 ≤ exponent.toNat := by omega
    have range : stepLimit ≤ 10 ^ 400 * stepsOfOne := by decide +kernel
    rw [whole, Nat.pow_zero, Nat.div_one]
    calc stepLimit ≤ 10 ^ 400 * stepsOfOne := range
      _ ≤ 10 ^ exponent.toNat * stepsOfOne :=
          Nat.mul_le_mul_right _ (Nat.pow_le_pow_right (by decide) most)
      _ ≤ digits * 10 ^ exponent.toNat * stepsOfOne :=
          Nat.mul_le_mul_right _ (Nat.le_mul_of_pos_left _ (Nat.pos_of_ne_zero some))
  next =>
  split
  next tiny =>
    refine (nearest?_of_lt ?_).symm
    have positive : exponent.toNat = 0 := by omega
    have range : 2 * stepsOfOne ≤ 10 ^ 400 := by decide +kernel
    have digitsBelow := lt_pow_decimalLength digits
    rw [positive, Nat.pow_zero, Nat.mul_one]
    calc 2 * (digits * stepsOfOne) = digits * (2 * stepsOfOne) := Nat.mul_left_comm _ _ _
      _ < 10 ^ decimalLength digits * 10 ^ 400 :=
          Nat.mul_lt_mul_of_lt_of_le digitsBelow range (Nat.pow_pos (by decide))
      _ = 10 ^ (decimalLength digits + 400) := (Nat.pow_add _ _ _).symm
      _ ≤ 10 ^ (-exponent).toNat := Nat.pow_le_pow_right (by decide) (by omega)
  next =>
  split
  next nonnegative =>
    have whole : (-exponent).toNat = 0 := by omega
    rw [whole, Nat.pow_zero, Nat.pow_eq]
  next =>
    have whole : exponent.toNat = 0 := by omega
    rw [whole, Nat.pow_zero, Nat.mul_one, Nat.pow_eq]

/-- Zeros at the end of the digits may as well be counted in the power of ten. -/
theorem ofDecimal?_mul_pow (digits zeros : Nat) (exponent : Int) :
    ofDecimal? (digits * 10 ^ zeros) exponent = ofDecimal? digits (exponent + zeros) := by
  have positive (power : Nat) : 0 < 10 ^ power := Nat.pow_pos (by decide)
  have powers : zeros + exponent.toNat + (-(exponent + zeros)).toNat
      = (exponent + zeros).toNat + (-exponent).toNat := by omega
  rw [ofDecimal?_eq, ofDecimal?_eq, nearest?, nearest?]
  refine congrArg ofSteps? (nearestSteps_congr (positive _) (positive _) ?_)
  calc digits * 10 ^ zeros * 10 ^ exponent.toNat * stepsOfOne * 10 ^ (-(exponent + zeros)).toNat
      = digits * stepsOfOne * 10 ^ (zeros + exponent.toNat + (-(exponent + zeros)).toNat) := by
        rw [Nat.pow_add, Nat.pow_add]
        ring
    _ = digits * 10 ^ (exponent + zeros).toNat * stepsOfOne * 10 ^ (-exponent).toNat := by
        rw [powers, Nat.pow_add]
        ring

theorem mul_pow_five_mul_pow_two (steps power : Nat) {unit : Nat} (isUnit : unit = Nat.pow 2 power) :
    steps * Nat.pow 5 power * unit = steps * 10 ^ power := by
  rw [isUnit, Nat.mul_assoc]
  exact congrArg (steps * ·) (Nat.mul_pow 5 2 power).symm

/-- The exact decimal of a size reads back to it. -/
theorem ofDecimal?_exactDigits (magnitude : Magnitude) :
    ofDecimal? magnitude.exactDigits (-1074) = some magnitude := by
  have ratio : magnitude.exactDigits * 10 ^ (-1074 : Int).toNat * stepsOfOne * 1
      = magnitude.steps * 10 ^ (- -1074 : Int).toNat := by
    have whole : (-1074 : Int).toNat = 0 := by decide
    have fraction : (- -1074 : Int).toNat = 1074 := by decide
    rw [whole, fraction, Nat.pow_zero, Nat.mul_one, Nat.mul_one]
    exact mul_pow_five_mul_pow_two _ _ rfl
  rw [ofDecimal?_eq, nearest?,
    nearestSteps_congr (Nat.pow_pos (by decide)) Nat.one_pos ratio,
    nearestSteps_one magnitude.isDouble, ofSteps?_steps]

/-- The decimal that is chosen for a size reads back to it. -/
theorem ofDecimal?_shortest (magnitude : Magnitude) :
    ofDecimal? magnitude.shortest.1 magnitude.shortest.2 = some magnitude := by
  unfold shortest
  cases found : (List.range 17).findSome? fun index => magnitude.shortest? (index + 1) with
  | none => exact ofDecimal?_exactDigits magnitude
  | some decimal =>
      obtain ⟨index, _, short⟩ := List.exists_of_findSome?_eq_some found
      simpa [readsBack] using readsBack_shortest? short

end Magnitude

end DocStore
