import DocStore.Digest.Sha256
import DocStore.Identifier
/-!
# File names of keys

A document is kept in a file named after its identifier, a constraint in one named after its own
name.  A key becomes a mark and the letters of its bytes; where that is too long for a file name,
another mark and the digest of the key.

The letters are 64, of which none has a meaning in paths: three bytes become four letters, and a
rest of one or two bytes becomes two or three letters, without padding.
-/

set_option autoImplicit false

/-! ## Letters for bytes -/

namespace DocStore.Digest.Base64Url

/-- The letter of a value below 64. -/
def letter (value : Nat) : Char :=
  if value < 26 then Char.ofNat (65 + value)
  else if value < 52 then Char.ofNat (71 + value)
  else if value < 62 then Char.ofNat (value - 4)
  else if value = 62 then '-'
  else '_'

/-- The letters of bytes. -/
def encode : List Nat → List Char
  | a :: b :: c :: rest =>
      letter (a / 4) :: letter (a % 4 * 16 + b / 16) :: letter (b % 16 * 4 + c / 64)
        :: letter (c % 64) :: encode rest
  | [a, b] => [letter (a / 4), letter (a % 4 * 16 + b / 16), letter (b % 16 * 4)]
  | [a] => [letter (a / 4), letter (a % 4 * 16)]
  | [] => []

end DocStore.Digest.Base64Url

namespace DocStore.Files

/-- How many letters a written key may have. -/
def maxKeyLength : Nat := 200

/-- The ending of the names of stored files. -/
def storedEnding : String := ".json"

/-- The bytes of a text in the encoding UTF-8. -/
def bytesOf (text : String) : List Nat :=
  text.toUTF8.toList.map UInt8.toNat

/-- The name of a file that tells some bytes, unless it is too long. -/
def bytesName? (bytes : List Nat) : Option String :=
  let written := 'b' :: Digest.Base64Url.encode bytes
  if written.length ≤ maxKeyLength then some (String.ofList written ++ storedEnding) else none

/-- The name of a file that tells the digest of some bytes. -/
def digestName (bytes : List Nat) : String :=
  "h" ++ Identifier.ofBytes (Digest.sha256 bytes) ++ storedEnding

/-- The name of the file of a key. -/
def keyName (key : String) : String :=
  (bytesName? (bytesOf key)).getD (digestName (bytesOf key))

end DocStore.Files
