/-!
# Positions in a value

A position is the list of the keys and item numbers that lead to it from the root.  Its text is a
pointer: every step after a solidus, where the tilde and the solidus of a step are escaped.
`Location.text` puts a given text in front, for values that are themselves part of a larger one.
`Pointer.steps` reads the steps off a pointer.
-/

set_option autoImplicit false

namespace DocStore.Json

namespace Pointer

/-- A character of a step; the two characters with a meaning in pointers are escaped. -/
def escapeChar (character : Char) : List Char :=
  if character = '~' then ['~', '0']
  else if character = '/' then ['~', '1']
  else [character]

/-- The text of a step. -/
def stepChars (step : String) : List Char :=
  '/' :: step.toList.flatMap escapeChar

/-- The text of a position. -/
def chars (steps : List String) : List Char :=
  steps.flatMap stepChars

/-- The text of a position; the root has the empty text. -/
def text (steps : List String) : String :=
  String.ofList (chars steps)

/-- The parts of a text that stand between its solidi. -/
def pieces : List Char → List (List Char)
  | [] => [[]]
  | '/' :: rest => [] :: pieces rest
  | character :: rest =>
      match pieces rest with
      | [] => [[character]]
      | piece :: others => (character :: piece) :: others

/-- A text with a character in the place of every tilde that a mark follows, and of the mark. -/
def replaceMarked (mark character : Char) : List Char → List Char
  | '~' :: next :: rest =>
      if next = mark then character :: replaceMarked mark character rest
      else '~' :: replaceMarked mark character (next :: rest)
  | other :: rest => other :: replaceMarked mark character rest
  | [] => []

/-- The step that a piece of a pointer stands for.  Solidi come first, since the tilde of an escape
may itself be escaped. -/
def readStep (piece : List Char) : String :=
  String.ofList (replaceMarked '0' '~' (replaceMarked '1' '/' piece))

/-- The steps of a pointer; what stands before its first solidus is none. -/
def steps (pointer : String) : List String :=
  ((pieces pointer.toList).drop 1).map readStep

end Pointer

/-- A position below a place that is known by its pointer. -/
structure Location where
  /-- The pointer of the place. -/
  base : String
  /-- The position from there. -/
  steps : List String
deriving DecidableEq

namespace Location

/-- The pointer of a location. -/
def text (location : Location) : String :=
  location.base ++ Pointer.text location.steps

/-- How messages name a location. -/
def phrase (location : Location) : String :=
  if location.text = "" then "document root" else location.text

/-- The location of a child. -/
def child (location : Location) (step : String) : Location :=
  { location with steps := location.steps ++ [step] }

end Location

end DocStore.Json
