import DocStore.Caller.Value
/-!
# Values of callers as keys

A caller may use any value as a key.  Two keys are the same when they are equal simple values, where
an undefined number equals itself and the two zeros are one, or when they are one and the same
object; an object that is made again is another one.  So a key carries the moment at which it was
handed in, and `Key.identity` is all that tells it apart.
-/

set_option autoImplicit false

namespace DocStore.Caller

/-- What tells a key apart. -/
inductive Identity where
  | absent
  /-- A scalar; zero has no sign. -/
  | scalar (value : Scalar)
  | integer (value : Int)
  /-- A value that was made at a moment and equals no other. -/
  | made (moment : List Nat)
deriving DecidableEq

/-- A value that is used as a key. -/
structure Key where
  /-- The value. -/
  value : Value
  /-- The moment at which it was handed in. -/
  moment : List Nat

namespace Key

/-- The key that a text is, at whatever moment. -/
def ofText (text : String) : Key := ⟨.ofString text, []⟩

/-- What tells a key apart. -/
def identity (key : Key) : Identity :=
  match key.value with
  | .absent => .absent
  | .scalar (.number number) =>
      .scalar (.number (if Number.zero.same number then .zero else number))
  | .scalar value => .scalar value
  | .integer value => .integer value
  | _ => .made key.moment

end Key

end DocStore.Caller
