import DocStore.Json.Quoted
import DocStore.Json.Tree
import DocStore.Text.Units
/-!
# The text of a JSON value

A value is written on one line, or with every item and every field on a line of its own, indented
by a gap for each level, which usually is a number of spaces.  Empty arrays and objects stay on one
line in both layouts.  A number without a finite value is written as null.

`chars` is the rule.  `write` puts a value in front of what follows it, so that no part of a text
is copied again for every level above it; `write_eq_append` says that this is the same, and
`text_eq` that the text of a value is the rule's.
-/

set_option autoImplicit false

namespace DocStore.Json

/-- How values are laid out: on one line, or one item to a line with a gap for each level. -/
inductive Layout where
  | line
  | indented (gap : List Char)
deriving DecidableEq

namespace Layout

/-- What stands before an item at a given depth. -/
def lineBreak (depth : Nat) : Layout → List Char
  | line => []
  | indented gap => '\n' :: (List.replicate depth gap).flatten

/-- What stands between a key and its value. -/
def colon : Layout → List Char
  | line => [':']
  | indented _ => [':', ' ']

/-- The layout with a number of spaces for each level. -/
def spaces (count : Nat) : Layout :=
  indented (List.replicate count ' ')

/-- The widest gap, in units. -/
def widest : Nat := 10

/-- The layout for an indentation given as a number: none for zero and below, no more than the
widest gap, and a fraction of a space counts for line breaks only. -/
def ofNumber (indent : Number) : Layout :=
  if indent.isPositive then
    spaces (match indent.floor? with | some count => min count widest | none => widest)
  else line

/-- The layout for a gap given as a text, which is cut at the widest; none for the empty text. -/
def ofText (gap : String) : Layout :=
  if gap = "" then line else indented (Text.cutChars widest gap.toList)

end Layout

/-- How a scalar is written. -/
def scalarChars : Scalar → List Char
  | .null => "null".toList
  | .boolean true => "true".toList
  | .boolean false => "false".toList
  | .number value => if value.isFinite then value.chars else "null".toList
  | .string value => Quoted.quote value

mutual
/-- How a value at a given depth is written. -/
def chars (layout : Layout) (depth : Nat) : Tree Scalar → List Char
  | .leaf value => scalarChars value
  | .array [] => ['[', ']']
  | .array (first :: rest) =>
      '[' :: layout.lineBreak (depth + 1) ++ chars layout (depth + 1) first
        ++ itemsChars layout (depth + 1) rest ++ layout.lineBreak depth ++ [']']
  | .object [] => ['{', '}']
  | .object ((key, first) :: rest) =>
      '{' :: layout.lineBreak (depth + 1) ++ Quoted.quote key ++ layout.colon
        ++ chars layout (depth + 1) first
        ++ fieldsChars layout (depth + 1) rest ++ layout.lineBreak depth ++ ['}']

/-- How the items after the first are written, each after a comma. -/
def itemsChars (layout : Layout) (depth : Nat) : List (Tree Scalar) → List Char
  | [] => []
  | item :: rest =>
      ',' :: layout.lineBreak depth ++ chars layout depth item ++ itemsChars layout depth rest

/-- How the fields after the first are written, each after a comma. -/
def fieldsChars (layout : Layout) (depth : Nat) : List (String × Tree Scalar) → List Char
  | [] => []
  | (key, value) :: rest =>
      ',' :: layout.lineBreak depth ++ Quoted.quote key ++ layout.colon
        ++ chars layout depth value ++ fieldsChars layout depth rest
end

mutual
/-- A value at a given depth in front of what follows it. -/
def write (layout : Layout) (depth : Nat) : Tree Scalar → List Char → List Char
  | .leaf value, after => scalarChars value ++ after
  | .array [], after => '[' :: ']' :: after
  | .array (first :: rest), after =>
      '[' :: (layout.lineBreak (depth + 1) ++ write layout (depth + 1) first
        (writeItems layout (depth + 1) rest (layout.lineBreak depth ++ ']' :: after)))
  | .object [], after => '{' :: '}' :: after
  | .object ((key, first) :: rest), after =>
      '{' :: (layout.lineBreak (depth + 1) ++ (Quoted.quote key ++ (layout.colon
        ++ write layout (depth + 1) first
          (writeFields layout (depth + 1) rest (layout.lineBreak depth ++ '}' :: after)))))

/-- The items after the first in front of what follows them. -/
def writeItems (layout : Layout) (depth : Nat) : List (Tree Scalar) → List Char → List Char
  | [], after => after
  | item :: rest, after =>
      ',' :: (layout.lineBreak depth
        ++ write layout depth item (writeItems layout depth rest after))

/-- The fields after the first in front of what follows them. -/
def writeFields (layout : Layout) (depth : Nat) :
    List (String × Tree Scalar) → List Char → List Char
  | [], after => after
  | (key, value) :: rest, after =>
      ',' :: (layout.lineBreak depth ++ (Quoted.quote key ++ (layout.colon
        ++ write layout depth value (writeFields layout depth rest after))))
end

mutual
/-- Writing a value in front of a text is the same as writing it and then the text. -/
theorem write_eq_append (layout : Layout) (depth : Nat) (value : Tree Scalar)
    (after : List Char) : write layout depth value after = chars layout depth value ++ after := by
  match value with
  | .leaf value => rfl
  | .array [] => rfl
  | .array (first :: rest) =>
      simp [write, chars, write_eq_append layout (depth + 1) first,
        writeItems_eq_append layout (depth + 1) rest]
  | .object [] => rfl
  | .object ((key, first) :: rest) =>
      simp [write, chars, write_eq_append layout (depth + 1) first,
        writeFields_eq_append layout (depth + 1) rest]

/-- The same of the items after the first. -/
theorem writeItems_eq_append (layout : Layout) (depth : Nat) (items : List (Tree Scalar))
    (after : List Char) :
    writeItems layout depth items after = itemsChars layout depth items ++ after := by
  match items with
  | [] => rfl
  | item :: rest =>
      simp [writeItems, itemsChars, write_eq_append layout depth item,
        writeItems_eq_append layout depth rest]

/-- The same of the fields after the first. -/
theorem writeFields_eq_append (layout : Layout) (depth : Nat)
    (fields : List (String × Tree Scalar)) (after : List Char) :
    writeFields layout depth fields after = fieldsChars layout depth fields ++ after := by
  match fields with
  | [] => rfl
  | (key, value) :: rest =>
      simp [writeFields, fieldsChars, write_eq_append layout depth value,
        writeFields_eq_append layout depth rest]
end

/-- The text of a value. -/
def text (layout : Layout) (value : Json) : String :=
  String.ofList (write layout 0 value [])

/-- The text of a value is what the rule says. -/
theorem text_eq (layout : Layout) (value : Json) :
    text layout value = String.ofList (chars layout 0 value) := by
  simp [text, write_eq_append]

/-- The text of a value on one line. -/
def line (value : Json) : String :=
  text .line value

end DocStore.Json
