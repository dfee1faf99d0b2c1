import DocStore.Text.Units
/-!
# Names of collections

A collection is named by a text that is also the name of a directory: letters, digits and a few
marks, with restrictions that keep it visible, inside its parent and usable on every system.  A name
with several faults is refused for the first of them in the order of `Collection.nameFault?`.
-/

set_option autoImplicit false

namespace DocStore.Collection

/-- Why a text is not the name of a collection. -/
inductive NameFault where
  /-- There is no text, or an empty one. -/
  | missing
  /-- The text is too long; `start` is how it starts. -/
  | tooLong (start : String)
  /-- A character is not allowed. -/
  | characters (name : String)
  /-- The first character is a point or a dash. -/
  | opening (name : String)
  /-- Two points follow each other. -/
  | points (name : String)
  /-- The last character is a point. -/
  | closing (name : String)
  /-- The part before the first point names a device. -/
  | reserved (name : String)
deriving DecidableEq

/-- How many units a name may have. -/
def maxNameLength : Nat := 128

/-- What a message says about a refused name. -/
def NameFault.message : NameFault → String
  | missing => "Collection name must be a non-empty string"
  | tooLong start =>
      "Collection name cannot be longer than " ++ toString maxNameLength ++ " characters: \""
        ++ start ++ "...\""
  | characters name =>
      "Collection name contains invalid characters: \"" ++ name
        ++ "\". Only alphanumeric, underscore, dash, and dot are allowed."
  | .opening name => "Collection name cannot start with \".\" or \"-\": \"" ++ name ++ "\""
  | points name => "Collection name cannot contain \"..\": \"" ++ name ++ "\""
  | closing name => "Collection name cannot end with \".\": \"" ++ name ++ "\""
  | reserved name =>
      "Collection name cannot be a Windows reserved name: \"" ++ name
        ++ "\". Reserved names: CON, PRN, AUX, NUL, COM1-9, LPT1-9"

/-- A character that a name may hold. -/
def isNameChar (character : Char) : Bool :=
  character.isAlphanum || character == '_' || character == '.' || character == '-'

/-- Names of devices that have no number. -/
def plainDevices : List String := ["con", "prn", "aux", "nul"]

/-- Whether a text in small letters names a device. -/
def isDevice (text : List Char) : Bool :=
  plainDevices.contains (String.ofList text)
    || match text with
      | ['c', 'o', 'm', digit] | ['l', 'p', 't', digit] => '1' ≤ digit && digit ≤ '9'
      | _ => false

/-- Whether two points follow each other. -/
def hasDoublePoint : List Char → Bool
  | '.' :: '.' :: _ => true
  | _ :: rest => hasDoublePoint rest
  | [] => false

/-- Why a text is not the name of a collection, if it is not. -/
def nameFault? (name : String) : Option NameFault :=
  let text := name.toList
  if text = [] then some .missing
  else if maxNameLength < Text.length name then some (.tooLong (Text.cut 16 name))
  else if !text.all isNameChar then some (.characters name)
  else if text.head? = some '.' ∨ text.head? = some '-' then some (.opening name)
  else if hasDoublePoint text then some (.points name)
  else if text.getLast? = some '.' then some (.closing name)
  else if isDevice ((text.takeWhile (· != '.')).map Char.toLower) then some (.reserved name)
  else none

end DocStore.Collection
