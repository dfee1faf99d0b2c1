import DocStore.Text.Units
/-!
# Texts as literals

A text is shown between quotes, with escapes for what cannot be seen.  The quotes are those of the
three kinds that the text does not hold itself, as far as possible.  A long text of several lines is
shown as several literals with plus signs between them.
-/

set_option autoImplicit false

namespace DocStore.Text

/-- The hexadecimal digits of a code below 256. -/
def codeDigits (code : Nat) : List Char :=
  let digits := (Nat.toDigits 16 code).map Char.toUpper
  List.replicate (2 - digits.length) '0' ++ digits

/-- How a character is written between quotes of a kind. -/
def escaped (quote character : Char) : List Char :=
  if character = '\n' then ['\\', 'n']
  else if character = '\t' then ['\\', 't']
  else if character = '\r' then ['\\', 'r']
  else if character = '\x08' then ['\\', 'b']
  else if character = '\x0c' then ['\\', 'f']
  else if character = '\\' then ['\\', '\\']
  else if character = quote ∧ quote = '\'' then ['\\', '\'']
  else if character.toNat < 0x20 ∨ (0x7F ≤ character.toNat ∧ character.toNat < 0xA0) then
    '\\' :: 'x' :: codeDigits character.toNat
  else [character]

/-- Whether a text opens a place for a value between grave accents. -/
def hasPlace : List Char → Bool
  | '$' :: '\x7b' :: _ => true
  | _ :: rest => hasPlace rest
  | [] => false

/-- The kind of quotes around a text. -/
def quoteFor (text : List Char) : Char :=
  if !text.contains '\'' then '\''
  else if !text.contains '"' then '"'
  else if !text.contains '\x60' ∧ !hasPlace text then '\x60'
  else '\''

/-- The literal of one part of a text. -/
def literalPart (text : List Char) : String :=
  let quote := quoteFor text
  String.ofList (quote :: text.flatMap (escaped quote) ++ [quote])

/-- The lines of a text, each with its end. -/
def linesOf : List Char → List (List Char)
  | [] => [[]]
  | '\n' :: rest => if rest = [] then [['\n']] else ['\n'] :: linesOf rest
  | character :: rest =>
      match linesOf rest with
      | line :: lines => (character :: line) :: lines
      | [] => [[character]]

/-- How many units of a text are shown as one literal. -/
def literalWidth : Nat := 76

/-- The literal of a text. -/
def literal (text : String) : String :=
  if literalWidth < length text then
    String.intercalate " +\n  " ((linesOf text.toList).map literalPart)
  else literalPart text.toList

/-- How many units of a literal are shown in a message. -/
def shownWidth : Nat := 128

/-- The literal of a text, cut where it is too long. -/
def shortLiteral (text : String) : String :=
  let shown := literal text
  if shownWidth < length shown then cut shownWidth shown ++ "..." else shown

end DocStore.Text
