import DocStore.Json.Numeral
import DocStore.Number.Text
import DocStore.Proofs.Number.Rounding
import Mathlib.Data.List.TakeWhile
/-!
# Written numbers are read back

The text of a finite number is a written number, and reading it gives the number again, up to the
sign of zero (`Number.decimal?_chars`).  What follows the number may be anything that does not
continue it (`Numeral.Ends`).  The five ways to place the point all write the same value
(`reads_layOut`).
-/

set_option autoImplicit false

namespace DocStore

/-- The number without the sign of a zero. -/
def Number.unsigned : Number → Number
  | .finite negative magnitude => .finite (negative && magnitude.steps != 0) magnitude
  | .infinite negative => .infinite negative
  | .undefined => .undefined

namespace Json.Numeral

/-! ## Digits -/

theorem isDigit_eq (character : Char) : isDigit character = character.isDigit := by
  rw [isDigit, Char.isDigit, Bool.eq_iff_iff]
  simp [Char.le_def]

theorem digitsValue_eq (digits : List Char) :
    Fields.digitsValue digits = Nat.ofDigitChars 10 digits 0 := rfl

theorem digitsValue_toDigits (value : Nat) :
    Fields.digitsValue (Nat.toDigits 10 value) = value := by
  rw [digitsValue_eq, Nat.ofDigitChars_ten_toDigits]

theorem digitsValue_append_zeros (digits : List Char) (zeros : Nat) :
    Fields.digitsValue (digits ++ List.replicate zeros '0')
      = Fields.digitsValue digits * 10 ^ zeros := by
  rw [digitsValue_eq, Nat.ofDigitChars_append, Nat.ofDigitChars_replicate_zero, Nat.mul_comm]
  rfl

theorem digitsValue_zeros_append (zeros : Nat) (digits : List Char) :
    Fields.digitsValue (List.replicate zeros '0' ++ digits) = Fields.digitsValue digits := by
  rw [digitsValue_eq, Nat.ofDigitChars_append, Nat.ofDigitChars_replicate_zero, Nat.mul_zero]
  rfl

theorem isDigit_of_mem_toDigits {value : Nat} {digit : Char}
    (member : digit ∈ Nat.toDigits 10 value) : isDigit digit = true := by
  rw [isDigit_eq]
  exact Nat.isDigit_of_mem_toDigits (by decide) (by decide) member

theorem head?_toDigits_ne_zero {value : Nat} (nonzero : value ≠ 0) :
    (Nat.toDigits 10 value).head? ≠ some '0' := by
  induction value using Nat.strongRecOn with
  | _ value ih =>
      rw [Nat.toDigits_eq_if (by decide)]
      split
      next small => simpa using nonzero
      next large =>
        obtain ⟨first, others, same⟩ :=
          List.exists_cons_of_ne_nil (Nat.toDigits_ne_nil (n := value / 10) (b := 10))
        have front := ih (value / 10) (by omega) (by omega)
        rw [same] at front ⊢
        exact front

/-- Digits that stand for a whole number as it is written: at least one, the first of them not
zero. -/
structure Significand (digits : List Char) : Prop where
  nonempty : digits ≠ []
  leading : digits.head? ≠ some '0'
  isDigits : ∀ digit ∈ digits, isDigit digit = true

theorem significand_toDigits {value : Nat} (nonzero : value ≠ 0) :
    Significand (Nat.toDigits 10 value) :=
  ⟨Nat.toDigits_ne_nil, head?_toDigits_ne_zero nonzero, fun _ => isDigit_of_mem_toDigits⟩

/-- The first digits of a significand are one. -/
theorem Significand.of_append {digits rest : List Char} (significand : Significand (digits ++ rest))
    (nonempty : digits ≠ []) : Significand digits where
  nonempty := nonempty
  leading := by
    obtain ⟨first, others, rfl⟩ := List.exists_cons_of_ne_nil nonempty
    exact significand.leading
  isDigits digit member := significand.isDigits digit (List.mem_append_left _ member)

/-! ## The parts of a written number -/

/-- A text that does not continue the digits before it. -/
def NoDigit (rest : List Char) : Prop :=
  ∀ character ∈ rest.head?, isDigit character = false

/-- A text that does not continue the number before it. -/
def Ends (rest : List Char) : Prop :=
  ∀ character ∈ rest.head?,
    isDigit character = false ∧ character ≠ '.' ∧ character ≠ 'e' ∧ character ≠ 'E'

theorem Ends.noDigit {rest : List Char} (ends : Ends rest) : NoDigit rest :=
  fun character member => (ends character member).1

theorem noDigit_cons {character : Char} (other : isDigit character = false) (rest : List Char) :
    NoDigit (character :: rest) := by
  intro head member
  obtain rfl : character = head := by simpa using member
  exact other

theorem digits_append {first rest : List Char} (all : ∀ digit ∈ first, isDigit digit = true)
    (stop : NoDigit rest) : digits (first ++ rest) = (first, rest) := by
  have stops : rest.takeWhile isDigit = [] ∧ rest.dropWhile isDigit = rest := by
    cases rest with
    | nil => exact ⟨rfl, rfl⟩
    | cons character rest =>
        have other : isDigit character = false := stop character rfl
        simp [other]
  rw [digits, List.takeWhile_append_of_pos all, List.dropWhile_append_of_pos all, stops.1, stops.2,
    List.append_nil]

theorem whole?_append {first rest : List Char} (significand : Significand first)
    (stop : NoDigit rest) : whole? (first ++ rest) = some (first, rest) := by
  obtain ⟨nonempty, leading, all⟩ := significand
  obtain ⟨digit, others, rfl⟩ := List.exists_cons_of_ne_nil nonempty
  have read := digits_append all stop
  rw [List.cons_append] at read ⊢
  have notZero : digit ≠ '0' := by simpa using leading
  unfold whole?
  split
  next _ same => exact absurd (List.cons.inj same).1 notZero
  next => rw [read]

theorem fraction?_point {first rest : List Char} (nonempty : first ≠ [])
    (all : ∀ digit ∈ first, isDigit digit = true) (stop : NoDigit rest) :
    fraction? ('.' :: (first ++ rest)) = some (first, rest) := by
  obtain ⟨digit, others, rfl⟩ := List.exists_cons_of_ne_nil nonempty
  rw [fraction?, digits_append all stop]

theorem fraction?_of_ne {rest : List Char} (other : ∀ character ∈ rest.head?, character ≠ '.') :
    fraction? rest = some ([], rest) := by
  unfold fraction?
  split
  next => exact absurd rfl (other '.' rfl)
  next => rfl

theorem exponent?_of_ends {rest : List Char} (ends : Ends rest) : exponent? rest = some (0, rest) := by
  have notLower : ∀ after, rest ≠ 'e' :: after := by
    rintro after rfl
    exact (ends 'e' rfl).2.2.1 rfl
  have notUpper : ∀ after, rest ≠ 'E' :: after := by
    rintro after rfl
    exact (ends 'E' rfl).2.2.2 rfl
  unfold exponent?
  split
  all_goals first
    | rfl
    | exact absurd rfl (notLower _)
    | exact absurd rfl (notUpper _)

theorem exponentValue?_toDigits (negative : Bool) (size : Nat) {rest : List Char}
    (stop : NoDigit rest) :
    exponentValue? negative (Nat.toDigits 10 size ++ rest)
      = some (if negative then -(size : Int) else size, rest) := by
  have value := digitsValue_toDigits size
  have all : ∀ digit ∈ Nat.toDigits 10 size, isDigit digit = true := fun _ =>
    isDigit_of_mem_toDigits
  have read := digits_append all stop
  obtain ⟨digit, others, same⟩ := List.exists_cons_of_ne_nil (Nat.toDigits_ne_nil (n := size) (b := 10))
  rw [same] at value read
  rw [exponentValue?, same, read]
  simp only [value]

/-- A written power of ten is read back. -/
theorem exponent?_mark (exponent : Int) {rest : List Char} (stop : NoDigit rest) :
    exponent? ('e' :: (if exponent < 0 then '-' else '+')
        :: (Nat.toDigits 10 exponent.natAbs ++ rest)) = some (exponent, rest) := by
  split
  next negative =>
    have size : -(exponent.natAbs : Int) = exponent := by omega
    generalize exponent.natAbs = magnitude at size ⊢
    simp [exponent?, exponentValue?_toDigits _ _ stop, size]
  next nonnegative =>
    have size : (exponent.natAbs : Int) = exponent := by omega
    generalize exponent.natAbs = magnitude at size ⊢
    simp [exponent?, exponentValue?_toDigits _ _ stop, size]

theorem sign_of_isDigit {first : Char} (digit : isDigit first = true) (rest : List Char) :
    sign (first :: rest) = (false, first :: rest) := by
  unfold sign
  split
  next same =>
    obtain ⟨rfl, _⟩ := List.cons.inj same
    exact absurd digit (by decide)
  next => rfl

/-- A written number starts with a minus sign, if it is negative, or with a digit. -/
theorem exists_cons_of_decimal? {text rest : List Char} {decimal : Decimal}
    (read : decimal? text = some (decimal, rest)) :
    ∃ first others, text = first :: others
      ∧ (first = '-' ∧ decimal.negative = true ∨ isDigit first = true) := by
  cases text with
  | nil => simp [decimal?, sign, whole?, digits] at read
  | cons first others =>
      refine ⟨first, others, rfl, ?_⟩
      by_contra neither
      obtain ⟨noMinus, notDigit⟩ := not_or.mp neither
      have notMinus : first ≠ '-' := by
        rintro rfl
        have minus : sign ('-' :: others) = (true, others) := rfl
        simp only [decimal?, minus, Option.bind_eq_bind, Option.bind_eq_some_iff] at read
        obtain ⟨whole, _, fraction, _, exponent, _, result⟩ := read
        obtain ⟨rfl, _⟩ := Prod.mk.inj (Option.some.inj result)
        exact noMinus ⟨rfl, rfl⟩
      have unsigned : sign (first :: others) = (false, first :: others) := by
        unfold sign
        split
        next same => exact absurd (List.cons.inj same).1 notMinus
        next => rfl
      have notZero : first ≠ '0' := by
        rintro rfl
        exact notDigit rfl
      have noWhole : whole? (first :: others) = none := by
        unfold whole?
        split
        next same => exact absurd (List.cons.inj same).1 notZero
        next => simp [digits, notDigit]
      simp [decimal?, unsigned, noWhole] at read

/-! ## A number from its parts -/

/-- How a number is read whose parts are read one after the other. -/
theorem decimal?_of_parts {text afterWhole afterFraction rest whole fraction : List Char}
    {exponent : Int} (unsigned : sign text = (false, text))
    (readWhole : whole? text = some (whole, afterWhole))
    (readFraction : fraction? afterWhole = some (fraction, afterFraction))
    (readExponent : exponent? afterFraction = some (exponent, rest)) :
    decimal? text = some (⟨false, Fields.digitsValue (whole ++ fraction),
      exponent - fraction.length⟩, rest) := by
  simp [decimal?, unsigned, readWhole, readFraction, readExponent]

/-- A minus sign in front of a number without one makes it negative. -/
theorem decimal?_minus {text rest : List Char} {decimal : Decimal}
    (unsigned : decimal.negative = false) (read : decimal? text = some (decimal, rest)) :
    decimal? ('-' :: text) = some (⟨true, decimal.digits, decimal.exponent⟩, rest) := by
  obtain ⟨first, others, rfl, ⟨_, negative⟩ | digit⟩ := exists_cons_of_decimal? read
  · exact absurd (unsigned.symm.trans negative) (by decide)
  have minus : sign ('-' :: first :: others) = (true, first :: others) := rfl
  simp only [decimal?, sign_of_isDigit digit, minus, Option.bind_eq_bind, Option.bind_eq_some_iff]
    at read ⊢
  obtain ⟨whole, readWhole, fraction, readFraction, exponent, readExponent, result⟩ := read
  refine ⟨whole, readWhole, fraction, readFraction, exponent, readExponent, ?_⟩
  obtain ⟨rfl, rfl⟩ := Prod.mk.inj (Option.some.inj result)
  rfl

end Json.Numeral

namespace Number

open Json.Numeral

/-! ## Placing the point -/

/-- Before a given rest, a text is read as a decimal that is rounded as the value is. -/
def Reads (text rest : List Char) (value : Nat) (exponent : Int) : Prop :=
  ∃ decimal, decimal? (text ++ rest) = some (decimal, rest) ∧ decimal.negative = false
    ∧ Magnitude.ofDecimal? decimal.digits decimal.exponent = Magnitude.ofDecimal? value exponent

section

variable {rest : List Char} (ends : Ends rest)
include ends

/-- No point: the zeros before it are written out. -/
theorem reads_whole {digits : List Char} (significand : Significand digits) (zeros : Nat) :
    Reads (digits ++ List.replicate zeros '0') rest (Fields.digitsValue digits) zeros := by
  obtain ⟨first, others, rfl⟩ := List.exists_cons_of_ne_nil significand.nonempty
  have longer : Significand (first :: others ++ List.replicate zeros '0') :=
    { nonempty := by simp
      leading := significand.leading
      isDigits := fun digit member => by
        rcases List.mem_append.mp member with member | member
        · exact significand.isDigits digit member
        · rw [List.eq_of_mem_replicate member]
          decide }
  refine ⟨_, decimal?_of_parts (sign_of_isDigit (significand.isDigits first List.mem_cons_self) _)
    (whole?_append longer ends.noDigit)
    (fraction?_of_ne fun character member => (ends character member).2.1)
    (exponent?_of_ends ends), rfl, ?_⟩
  rw [List.append_nil, digitsValue_append_zeros, Magnitude.ofDecimal?_mul_pow]
  simp

/-- The point stands among the digits. -/
theorem reads_point {whole fraction : List Char} (significand : Significand whole)
    (nonempty : fraction ≠ []) (all : ∀ digit ∈ fraction, isDigit digit = true) :
    Reads (whole ++ '.' :: fraction) rest (Fields.digitsValue (whole ++ fraction))
      (-(fraction.length : Int)) := by
  obtain ⟨first, others, rfl⟩ := List.exists_cons_of_ne_nil significand.nonempty
  have read := decimal?_of_parts
    (sign_of_isDigit (significand.isDigits first List.mem_cons_self) _)
    (whole?_append significand (noDigit_cons (by decide) _))
    (fraction?_point nonempty all ends.noDigit) (exponent?_of_ends ends)
  rw [Int.zero_sub] at read
  refine ⟨⟨false, _, _⟩, ?_, rfl, rfl⟩
  rw [List.append_assoc]
  exact read

/-- Zeros stand between the point and the digits. -/
theorem reads_small {digits : List Char} (nonempty : digits ≠ [])
    (all : ∀ digit ∈ digits, isDigit digit = true) (zeros : Nat) :
    Reads ('0' :: '.' :: List.replicate zeros '0' ++ digits) rest (Fields.digitsValue digits)
      (-((zeros + digits.length : Nat) : Int)) := by
  have allDigits : ∀ digit ∈ List.replicate zeros '0' ++ digits, isDigit digit = true := by
    intro digit member
    rcases List.mem_append.mp member with member | member
    · rw [List.eq_of_mem_replicate member]
      decide
    · exact all digit member
  have zero (after : List Char) : Json.Numeral.whole? ('0' :: after) = some (['0'], after) := rfl
  have read := decimal?_of_parts (sign_of_isDigit (show isDigit '0' = true by decide) _) (zero _)
    (fraction?_point (by simp [nonempty]) allDigits ends.noDigit) (exponent?_of_ends ends)
  refine ⟨_, read, rfl, ?_⟩
  have value : Fields.digitsValue ('0' :: (List.replicate zeros '0' ++ digits))
      = Fields.digitsValue digits := digitsValue_zeros_append (zeros + 1) digits
  simp [value]

/-- One digit stands before the point, and a power of ten after the others. -/
theorem reads_power {first : Char} {others : List Char} (significand : Significand (first :: others))
    (exponent : Int) :
    Reads (first :: (if others = [] then [] else '.' :: others)
        ++ 'e' :: (if exponent < 0 then '-' else '+') :: Nat.toDigits 10 exponent.natAbs) rest
      (Fields.digitsValue (first :: others)) (exponent - others.length) := by
  have digit := significand.isDigits first List.mem_cons_self
  have leading : Significand [first] :=
    Significand.of_append (show Significand ([first] ++ others) from significand) (by simp)
  have mark (after : List Char) : NoDigit ('e' :: after) := noDigit_cons (by decide) after
  split
  next alone =>
    subst alone
    have read := decimal?_of_parts (sign_of_isDigit digit _) (whole?_append leading (mark _))
      (fraction?_of_ne (by simp)) (exponent?_mark exponent ends.noDigit)
    exact ⟨_, by simpa using read, rfl, by simp⟩
  next more =>
    have all : ∀ digit ∈ others, isDigit digit = true := fun digit member =>
      significand.isDigits digit (List.mem_cons_of_mem _ member)
    have read := decimal?_of_parts (sign_of_isDigit digit _)
      (whole?_append leading (noDigit_cons (by decide) _))
      (fraction?_point more all (mark _)) (exponent?_mark exponent ends.noDigit)
    exact ⟨_, by simpa using read, rfl, rfl⟩

/-- Digits with a point are read as their value, wherever the point is placed. -/
theorem reads_layOut {digits : List Char} (significand : Significand digits) (point : Int) :
    Reads (layOut digits point) rest (Fields.digitsValue digits) (point - digits.length) := by
  have positive := List.length_pos_iff.mpr significand.nonempty
  unfold layOut
  simp only
  split
  next plain =>
    split
    next whole =>
      have zeros : point - digits.length = (point.toNat - digits.length : Nat) := by omega
      rw [zeros]
      exact reads_whole ends significand _
    next inside =>
    split
    next among =>
      have parts := List.take_append_drop point.toNat digits
      have before : digits.take point.toNat ≠ [] := by
        rw [← List.length_pos_iff, List.length_take]
        omega
      have after : digits.drop point.toNat ≠ [] := by
        rw [← List.length_pos_iff, List.length_drop]
        omega
      have places : point - digits.length = -((digits.drop point.toNat).length : Int) := by
        rw [List.length_drop]
        omega
      have read := reads_point ends (Significand.of_append (by rwa [parts]) before) after
        fun digit member => significand.isDigits digit (List.mem_of_mem_drop member)
      rwa [parts, ← places] at read
    next below =>
      have places : point - digits.length = -(((-point).toNat + digits.length : Nat) : Int) := by
        omega
      rw [places]
      exact reads_small ends significand.nonempty significand.isDigits _
  next =>
    obtain ⟨first, others, rfl⟩ := List.exists_cons_of_ne_nil significand.nonempty
    have places : point - (first :: others).length = point - 1 - others.length := by
      simp only [List.length_cons]
      omega
    rw [places]
    simpa using reads_power ends significand (point - 1)

end

/-! ## The text of a number -/

/-- What is left of digits without the zeros at their end. -/
theorem withoutTrailingZeros_toDigits {value : Nat} (nonzero : value ≠ 0) (exponent : Int) :
    ∃ digits, ∃ zeros : Nat,
      withoutTrailingZeros (Nat.toDigits 10 value).reverse exponent = (digits, exponent + zeros)
        ∧ Significand digits ∧ value = Fields.digitsValue digits * 10 ^ zeros := by
  generalize all : (Nat.toDigits 10 value).reverse = reversed
  obtain ⟨kept, parts⟩ := List.takeWhile_prefix (· == '0') (l := reversed)
  have atEnd : reversed.takeWhile (· == '0')
      = List.replicate (reversed.takeWhile (· == '0')).length '0' :=
    List.eq_replicate_iff.mpr
      ⟨rfl, fun digit member => by simpa using List.mem_takeWhile_imp member⟩
  generalize (reversed.takeWhile (· == '0')).length = zeros at atEnd
  rw [atEnd] at parts
  have digits : Nat.toDigits 10 value = kept.reverse ++ List.replicate zeros '0' := by
    rw [← List.reverse_reverse (Nat.toDigits 10 value), all, ← parts, List.reverse_append,
      List.reverse_replicate]
  have result : value = Fields.digitsValue kept.reverse * 10 ^ zeros := by
    rw [← digitsValue_append_zeros, ← digits, digitsValue_toDigits]
  have nonempty : kept.reverse ≠ [] := by
    intro empty
    rw [empty] at result
    exact nonzero (result.trans (Nat.zero_mul _))
  have significand : Significand (kept.reverse ++ List.replicate zeros '0') := by
    rw [← digits]
    exact significand_toDigits nonzero
  refine ⟨kept.reverse, zeros, ?_, significand.of_append nonempty, result⟩
  simp only [withoutTrailingZeros, atEnd, List.length_replicate]
  rw [← parts, List.drop_left' (List.length_replicate ..)]

theorem shortest_ne_zero {magnitude : Magnitude} (nonzero : magnitude.steps ≠ 0) :
    magnitude.shortest.1 ≠ 0 := by
  intro none
  have read := magnitude.ofDecimal?_shortest
  rw [none, Magnitude.ofDecimal?, if_pos rfl] at read
  obtain rfl := Option.some.inj read
  exact nonzero rfl

/-- The text of a size is read as the size. -/
theorem decimal?_magnitudeChars (magnitude : Magnitude) {rest : List Char} (ends : Ends rest) :
    ∃ decimal, decimal? (magnitudeChars magnitude ++ rest) = some (decimal, rest)
      ∧ decimal.negative = false
      ∧ Magnitude.ofDecimal? decimal.digits decimal.exponent = some magnitude := by
  unfold magnitudeChars
  split
  next none =>
    have zero (after : List Char) : Json.Numeral.whole? ('0' :: after) = some (['0'], after) := rfl
    have read := decimal?_of_parts (sign_of_isDigit (show isDigit '0' = true by decide) _) (zero rest)
      (fraction?_of_ne fun character member => (ends character member).2.1)
      (exponent?_of_ends ends)
    obtain ⟨steps, isDouble⟩ := magnitude
    subst none
    have value : Fields.digitsValue (['0'] ++ []) = 0 := rfl
    refine ⟨_, read, rfl, ?_⟩
    rw [Magnitude.ofDecimal?, if_pos value]
    rfl
  next nonzero =>
    have back := magnitude.ofDecimal?_shortest
    have notZero := shortest_ne_zero nonzero
    generalize magnitude.shortest = found at back notZero ⊢
    obtain ⟨value, exponent⟩ := found
    simp only at back notZero
    obtain ⟨digits, zeros, stripped, significand, same⟩ :=
      withoutTrailingZeros_toDigits notZero exponent
    obtain ⟨decimal, read, unsigned, rounded⟩ :=
      reads_layOut ends significand (exponent + zeros + digits.length)
    simp only [stripped]
    refine ⟨decimal, read, unsigned, ?_⟩
    calc Magnitude.ofDecimal? decimal.digits decimal.exponent
        = Magnitude.ofDecimal? (Fields.digitsValue digits) (exponent + zeros) := by
          rw [rounded, Int.add_sub_cancel]
      _ = Magnitude.ofDecimal? value exponent := by
          rw [same, Magnitude.ofDecimal?_mul_pow]
      _ = some magnitude := back

/-- **The text of a finite number is read as the number**, up to the sign of zero. -/
theorem decimal?_chars {value : Number} (finite : value.isFinite = true) {rest : List Char}
    (ends : Ends rest) :
    ∃ decimal, decimal? (value.chars ++ rest) = some (decimal, rest)
      ∧ Number.ofDecimal decimal = value.unsigned := by
  cases value with
  | infinite negative => exact absurd finite (by simp [isFinite])
  | undefined => exact absurd finite (by simp [isFinite])
  | finite negative magnitude =>
      obtain ⟨decimal, read, unsigned, same⟩ := decimal?_magnitudeChars magnitude ends
      simp only [chars]
      split
      next signed =>
        refine ⟨_, decimal?_minus unsigned read, ?_⟩
        obtain ⟨negative, positive⟩ := Bool.and_eq_true_iff.mp signed
        rw [Number.ofDecimal, same, Number.unsigned, signed]
      next plain =>
        refine ⟨decimal, read, ?_⟩
        rw [Number.ofDecimal, same, Number.unsigned, unsigned, Bool.not_eq_true _ |>.mp plain]

end Number

end DocStore
