import DocStore.Caller.Text
import DocStore.Json.Numeral
import DocStore.Text.Blank
/-!
# The number form of a caller's value

Where a number is wanted, any value of a caller counts as one: truth values as one and zero, null as
zero, moments as their milliseconds, and other values by their text forms.  Marks do not, nor do
objects without a text form.

A text stands for a number if it holds nothing but one number between blanks.  Numbers are decimal,
with an optional sign, fraction and power of ten; or they are written in the digits of another base
after a mark for it; or they are infinite.  The empty text stands for zero, and any text that holds
something else for an undefined number.

`Value.before?` is the order of two values of callers: two texts are compared by their units and all
other values as numbers.
-/

set_option autoImplicit false

/-! ## Numbers in texts -/

namespace DocStore.Number

/-- The value of a digit of a base up to sixteen. -/
def digitValue? (base : Nat) (character : Char) : Option Nat :=
  let value :=
    if '0' ≤ character && character ≤ '9' then character.toNat - '0'.toNat
    else if 'a' ≤ character && character ≤ 'f' then 10 + (character.toNat - 'a'.toNat)
    else if 'A' ≤ character && character ≤ 'F' then 10 + (character.toNat - 'A'.toNat)
    else base
  if value < base then some value else none

/-- The number of at least one digit of a base. -/
def ofDigits (base : Nat) (text : List Char) : Number :=
  match text.mapM (digitValue? base) with
  | some (first :: others) =>
      ofNat ((first :: others).foldl (fun value digit => base * value + digit) 0)
  | some [] | none => undefined

/-- The digits after the point of a number, of which there may be none. -/
def looseFraction : List Char → List Char × List Char
  | '.' :: text => Json.Numeral.digits text
  | text => ([], text)

/-- The number of a text without a sign. -/
def ofUnsigned (negative : Bool) (text : List Char) : Number :=
  if text = "Infinity".toList then infinite negative
  else
    let (whole, rest) := Json.Numeral.digits text
    let (fraction, rest) := looseFraction rest
    if whole = [] ∧ fraction = [] then undefined
    else
      match Json.Numeral.exponent? rest with
      | some (exponent, []) =>
          ofDecimal ⟨negative, Fields.digitsValue (whole ++ fraction), exponent - fraction.length⟩
      | _ => undefined

/-- The number that a text stands for. -/
def ofText (text : String) : Number :=
  match Text.trimChars text.toList with
  | [] => zero
  | '0' :: 'x' :: digits | '0' :: 'X' :: digits => ofDigits 16 digits
  | '0' :: 'o' :: digits | '0' :: 'O' :: digits => ofDigits 8 digits
  | '0' :: 'b' :: digits | '0' :: 'B' :: digits => ofDigits 2 digits
  | '+' :: digits => ofUnsigned false digits
  | '-' :: digits => ofUnsigned true digits
  | digits => ofUnsigned false digits

end DocStore.Number

namespace DocStore.Caller.Value

/-- The simple value that a value counts as where a number is wanted first. -/
def simple? (value : Value) : Option Value :=
  match value with
  | .array _ | .function | .table | .instanceOf _ | .enclosing _ => (text? value).map ofString
  | .date moment =>
      some (.scalar (.number (match moment with
        | some moment => .ofInt moment
        | none => .undefined)))
  | .object _ fields =>
      if holdsFunction "valueOf" fields || holdsFunction "toString" fields then
        some (.scalar (.number (.ofNat 1)))
      else (text? value).map ofString
  | value => some value

/-- The number form of a value. -/
def number? (value : Value) : Option Number := do
  match ← value.simple? with
  | .scalar .null => return .zero
  | .scalar (.boolean truth) => return .ofNat (if truth then 1 else 0)
  | .scalar (.number number) => return number
  | .scalar (.string text) => return .ofText text
  | .integer whole => return .ofInt whole
  | .absent => return .undefined
  | _ => none

/-- Whether a value comes before another; nothing where they cannot be compared. -/
def before? (first second : Value) : Option Bool := do
  match ← first.simple?, ← second.simple? with
  | .scalar (.string text), .scalar (.string text') => return Text.before text text'
  | first, second => return (← first.number?).lt (← second.number?)

end DocStore.Caller.Value
