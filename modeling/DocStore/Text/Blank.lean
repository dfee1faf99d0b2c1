/-!
# Blank characters

The blanks are the space separators of Unicode together with the line ends, the tabulators and the
byte order mark.  `isBlank_of_isWhitespace` says that every blank of the ASCII range is one of
them, and `trim` removes them from both ends of a text.
-/

set_option autoImplicit false

namespace DocStore.Text

/-- The blanks beyond the ASCII range, as first and last code point of each run. -/
def wideBlanks : List (Nat × Nat) :=
  [(0xA0, 0xA0), (0x1680, 0x1680), (0x2000, 0x200A), (0x2028, 0x2029), (0x202F, 0x202F),
   (0x205F, 0x205F), (0x3000, 0x3000), (0xFEFF, 0xFEFF)]

/-- Whether a character is blank. -/
def isBlank (character : Char) : Bool :=
  let code := character.toNat
  (9 ≤ code && code ≤ 13) || code == 32
    || wideBlanks.any fun (first, last) => first ≤ code && code ≤ last

theorem isBlank_of_isWhitespace {character : Char} (blank : character.isWhitespace = true) :
    isBlank character = true := by
  simp only [Char.isWhitespace, Bool.or_eq_true, decide_eq_true_eq] at blank
  rcases blank with ((rfl | rfl) | rfl) | rfl <;> decide

/-- The text without the blanks at its ends. -/
def trimChars (text : List Char) : List Char :=
  ((text.dropWhile isBlank).reverse.dropWhile isBlank).reverse

/-- The text without the blanks at its ends. -/
def trim (text : String) : String :=
  String.ofList (trimChars text.toList)

/-- Each run of blanks becomes one underscore; `inRun` says that the character before was blank. -/
def joinBlankRuns : Bool → List Char → List Char
  | _, [] => []
  | inRun, character :: rest =>
      if isBlank character then
        if inRun then joinBlankRuns true rest else '_' :: joinBlankRuns true rest
      else character :: joinBlankRuns false rest

/-- The text with each run of blanks written as one underscore. -/
def withoutBlanks (text : String) : String :=
  String.ofList (joinBlankRuns false text.toList)

end DocStore.Text
