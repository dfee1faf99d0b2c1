import DocStore.Caller.Plain
import DocStore.Error.Failure
/-!
# Identifiers of documents

Every document has an identifier, a text.  It is given by the caller or comes from a generator; a
generator of the caller may fail or produce any value, of which only texts that are not empty can
be used.  The generator of this library writes twelve random bytes in hexadecimal digits.
-/

set_option autoImplicit false

namespace DocStore.Identifier

/-- What a call of an identifier generator gives. -/
inductive Generated where
  /-- The generator returns a value. -/
  | value (value : Caller.Value)
  /-- The generator fails with an error of its own. -/
  | throws (message : String)
  /-- The generator says itself that it cannot produce an identifier. -/
  | refuses (message : String)

/-- How many random bytes an identifier has. -/
def byteCount : Nat := 12

/-- The two hexadecimal digits of a byte. -/
def byteDigits (byte : Nat) : List Char :=
  [Json.Quoted.hexDigit (byte / 16 % 16), Json.Quoted.hexDigit (byte % 16)]

/-- The identifier of random bytes. -/
def ofBytes (bytes : List Nat) : String :=
  String.ofList (bytes.flatMap byteDigits)

/-- A digit of an identifier made of random bytes. -/
def isDigit (character : Char) : Bool :=
  character.isDigit || ('a' ≤ character && character ≤ 'f')

/-- Whether a text looks like an identifier made of random bytes. -/
def isWellFormed (text : String) : Bool :=
  text.toList.length == 2 * byteCount && text.toList.all isDigit

/-- The identifier that a call of a generator gives.  A generator's own refusal is passed on; a
value that cannot be used is shown in the message, unless it has no text form. -/
def check : Generated → Except Failure String
  | .throws message => .error (.database ⟨.idGeneration .failed, some (.stated message)⟩)
  | .refuses message => .error (.ofFault (.idGeneration (.stated message)))
  | .value value =>
      match value.string? with
      | some text =>
          if text = "" then .error (.ofFault (.idGeneration (.unusable ""))) else .ok text
      | none =>
          match Caller.text? value with
          | some shown => .error (.ofFault (.idGeneration (.unusable shown)))
          | none => .error .illTyped

/-- The identifier that a caller gives, which has to be a text. -/
def ofValue (value : Caller.Value) : Except Failure String :=
  match value.string? with
  | some text => .ok text
  | none =>
      match Caller.describe? value with
      | some shown => .error (.ofInput (.identifier shown))
      | none => .error .illTyped

end DocStore.Identifier
