import DocStore.Sorting
import DocStore.Text.Units
/-!
# Suggestions

A word that is not known may be a known word with a slip of the pen.  The distance of two words is
the number of slips between them: a unit that is missing, superfluous or wrong, or two neighbours in
each other's place.  Of the known words those at the least distance are suggested, unless even they
are too far away or too little of them is left.
-/

set_option autoImplicit false

namespace DocStore.CommandLine

/-- How many slips are put up with. -/
def maxSlips : Nat := 3

/-- The distances of the parts at the head of one word to a part of another, from the distances to
its part that is shorter by one unit.  `above` is the distance before, `last` and `older` are the
distances to the parts that are shorter by one and by two units, and the options are the units
before. -/
def nextDistances (unit : Nat) (unitBefore : Option Nat) :
    Nat → Option Nat → List Nat → List Nat → List Nat → List Nat
  | above, before, here :: rest, diagonal :: left :: last, older =>
      let plain := min (min (above + 1) (left + 1)) (diagonal + if here = unit then 0 else 1)
      let distance :=
        if before = some unit ∧ unitBefore = some here then
          match older with
          | crossed :: _ => min plain (crossed + 1)
          | [] => plain
        else plain
      let older := if before.isSome then older.tail else older
      distance :: nextDistances unit unitBefore distance (some here) rest (left :: last) older
  | _, _, _, _, _ => []

/-- The distances of the parts at the head of one word to another word, whose remaining units are
given; `count` is the number of units before them. -/
def distances (first : List Nat) :
    Nat → Option Nat → List Nat → List Nat → List Nat → List Nat
  | _, _, _, last, [] => last
  | count, before, older, last, unit :: rest =>
      let next := (count + 1) :: nextDistances unit before (count + 1) none first last older
      distances first (count + 1) (some unit) last next rest

/-- The distance of two words; words whose lengths differ too much have nothing in common. -/
def slips (first second : List Nat) : Nat :=
  let longer := max first.length second.length
  if min first.length second.length + maxSlips < longer then longer
  else (distances first 0 none [] (List.range (first.length + 1)) second).getLastD longer

/-- Whether a known word may be meant by a word, given their distance. -/
def isClose (word known : List Nat) (distance : Nat) : Bool :=
  let longer := max word.length known.length
  decide (1 < known.length) && decide (distance ≤ maxSlips)
    && decide (2 * longer < 5 * (longer - distance))

/-- The known words that may be meant by a word, in the order of their units. -/
def closest (word : String) (known : List String) : List String :=
  let units := Text.units word.toList
  let near := known.eraseDups.filterMap fun candidate =>
    let other := Text.units candidate.toList
    let distance := slips units other
    if isClose units other distance then some (candidate, distance) else none
  let least := near.foldl (fun least entry => min least entry.2) maxSlips
  Sorting.sort Text.before
    ((near.filter fun entry => entry.2 == least).map Prod.fst)

/-- A text without its first two characters. -/
def withoutDashes (text : String) : String :=
  String.ofList (text.toList.drop 2)

/-- The known words that may be meant by a word.  Of an option only what follows its dashes counts.
-/
def similar (word : String) (known : List String) : List String :=
  match word.toList with
  | '-' :: '-' :: rest =>
      (closest (String.ofList rest) (known.eraseDups.map withoutDashes)).map ("--" ++ ·)
  | _ => closest word known

/-- What a message adds about words that may be meant. -/
def suggestion : List String → String
  | [] => ""
  | [word] => "\n(Did you mean " ++ word ++ "?)"
  | words => "\n(Did you mean one of " ++ String.intercalate ", " words ++ "?)"

end DocStore.CommandLine
