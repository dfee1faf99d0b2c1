/-!
# Paths

A path is the list of its components, and its text puts a solidus before each of them.  A last
component that is empty is written as a solidus at the end of the text; such a path can only name a
directory.  The path without components has the empty text and names nothing.

`Path.normalize` takes out empty components and points and lets two points remove the component
before them.  `Path.append` puts a text below a path and normalizes the result, and `Path.join` does
the same with two texts, the first of which need not start at the top.
-/

set_option autoImplicit false

namespace DocStore.Disk

/-- A path, as the list of its components. -/
abbrev Path := List String

namespace Path

/-- The text of a path. -/
def text (path : Path) : String :=
  String.join (path.map fun component => "/" ++ component)

/-- The path of the uppermost directory. -/
def top : Path := [""]

/-- The parts of a text between its solidi. -/
def splitChars : List Char → List (List Char)
  | [] => [[]]
  | character :: rest =>
      if character = '/' then [] :: splitChars rest
      else
        match splitChars rest with
        | [] => [[character]]
        | part :: parts => (character :: part) :: parts

/-- The parts of a text between its solidi. -/
def split (text : String) : List String :=
  (splitChars text.toList).map String.ofList

/-- Whether a text starts at the uppermost directory. -/
def isAbsolute (text : String) : Bool :=
  text.toList.head? == some '/'

/-- The components of a text, after those of a working directory unless the text starts at the top.
-/
def components (workingDirectory : Path) (text : String) : Path :=
  if isAbsolute text then (split text).drop 1 else workingDirectory ++ split text

/-- The path that a text names from a working directory; the empty text names nothing. -/
def ofText (workingDirectory : Path) (text : String) : Path :=
  if text = "" then [] else components workingDirectory text

/-- Add a component to a path that is written backwards. -/
def push (reversed : Path) (component : String) : Path :=
  if component = "" ∨ component = "." then reversed
  else if component = ".." then reversed.drop 1
  else component :: reversed

/-- A path without empty components and points. -/
def normalize (path : Path) : Path :=
  (path.foldl push []).reverse

/-- A normalized path; without components it is the uppermost directory. -/
def orTop (path : Path) : Path :=
  if path = [] then top else path

/-- The normalized path that a text names from a working directory, without a solidus at its end;
the empty text names the working directory. -/
def resolve (workingDirectory : Path) (text : String) : Path :=
  orTop (normalize (components workingDirectory text))

/-- The path of a text below a directory.  A solidus at the end of the text is kept. -/
def append (directory : Path) (text : String) : Path :=
  let path := normalize (directory ++ split text)
  if text.toList.getLast? = some '/' then path ++ [""] else orTop path

/-- Add a component to a path that is written backwards and starts anywhere; two points at its start
stay. -/
def pushLoose (reversed : Path) (component : String) : Path :=
  if component = ".." then
    match reversed with
    | [] => [".."]
    | last :: above => if last = ".." then ".." :: reversed else above
  else push reversed component

/-- The text of a path that starts anywhere; without components it is the point. -/
def looseText (path : Path) : String :=
  if path = [] then "." else String.intercalate "/" path

/-- The text that names the same as a text, without empty components and superfluous points.  A
solidus at the end is kept. -/
def normalText (text : String) : String :=
  let ending := if text.toList.getLast? = some '/' then "/" else ""
  if isAbsolute text then
    match normalize (split text) with
    | [] => "/"
    | path => path.text ++ ending
  else looseText ((split text).foldl pushLoose []).reverse ++ ending

/-- The normal text of one text below another; an empty one does not count. -/
def join (directory text : String) : String :=
  if directory = "" then normalText text
  else if text = "" then normalText directory
  else normalText (directory ++ "/" ++ text)

/-- A path without the empty component at its end. -/
def trimmed (path : Path) : Path :=
  if path.getLast? = some "" then path.dropLast else path

/-- The directory that holds what a path names. -/
def parent (path : Path) : Path :=
  orTop path.trimmed.dropLast

/-- The last component of a path. -/
def name (path : Path) : String :=
  path.trimmed.getLast?.getD ""

/-- The path of an entry of a directory. -/
def child (directory : Path) (name : String) : Path :=
  directory.trimmed ++ [name]

end Path

end DocStore.Disk
