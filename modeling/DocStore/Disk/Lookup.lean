import DocStore.Disk.Errno
import DocStore.Disk.Tree
/-!
# Finding the entry of a path

A path is followed from the top, component by component.  Every component but the last has to lead
to a directory; links are followed, up to a fixed number of them.  `locate` follows the path to its
end, links included; `locateEntry` stops at the last component, whatever is there.  Both succeed
when only the last component is missing, and tell whether the path asks for a directory by a
solidus at its end.
-/

set_option autoImplicit false

namespace DocStore.Disk

/-- Where a path leads. -/
structure Target where
  /-- The place that the path names. -/
  place : Place
  /-- What is there, if anything. -/
  entry : Option Entry
  /-- Whether the path ends in a solidus. -/
  slash : Bool
deriving DecidableEq

/-- How many links are followed on the way to one entry. -/
def maxLinks : Nat := 40

/-- How many bytes a name may have. -/
def maxNameBytes : Nat := 255

/-- How many bytes the text of a path may have. -/
def maxPathBytes : Nat := 4095

/-- What may follow a component that is not a directory: nothing, or a solidus. -/
def endsHere : List String → Option Bool
  | [] => some false
  | [""] => some true
  | _ => none

/-- Follow components from a directory.  Where a link has to be followed, `follow` goes on from the
directory that it starts from with the components of its target and the rest. -/
def walkWith (disk : Disk) (follow : Place → List String → Except Errno Target) :
    Place → List String → Except Errno Target
  | here, [] => .ok ⟨here, disk.entry? here, false⟩
  | here, component :: rest =>
      if component = "" ∨ component = "." then walkWith disk follow here rest
      else if component = ".." then walkWith disk follow here.dropLast rest
      else if maxNameBytes < component.utf8ByteSize then .error .nameTooLong
      else
        match disk.entry? (here ++ [component]), endsHere rest with
        | some (.directory _), _ => walkWith disk follow (here ++ [component]) rest
        | some (.link target), _ =>
            if target = "" then .error .noEntry
            else if Path.isAbsolute target then follow [] (Path.split target ++ rest)
            else follow here (Path.split target ++ rest)
        | some entry, some slash => .ok ⟨here ++ [component], some entry, slash⟩
        | some _, none => .error .notDirectory
        | none, some slash => .ok ⟨here ++ [component], none, slash⟩
        | none, none => .error .noEntry

/-- Follow components from a directory, with a number of links that may still be followed. -/
def walk (disk : Disk) : Nat → Place → List String → Except Errno Target
  | 0 => walkWith disk fun _ _ => .error .loop
  | links + 1 => walkWith disk (walk disk links)

/-- Refuse texts that no call can be made on, for one of their bytes is zero, the empty text and
texts that are too long. -/
def checkText (text : String) : Except Errno Unit :=
  if text.toByteArray.data.toList.contains 0 then .error .impossiblePath
  else if text = "" then .error .noEntry
  else if maxPathBytes < text.utf8ByteSize then .error .nameTooLong
  else .ok ()

/-- Refuse paths that no call can be made on, paths without components and paths that are too long.
-/
def checkPath (path : Path) : Except Errno Unit :=
  checkText path.text

/-- Where a path leads, all links followed. -/
def locate (disk : Disk) (path : Path) : Except Errno Target := do
  checkPath path
  walk disk maxLinks [] path

/-- Where a path leads, where a link at its end is not followed. -/
def locateEntry (disk : Disk) (path : Path) : Except Errno Target := do
  checkPath path
  let slash := path.getLast? == some ""
  let components := path.trimmed
  match components.getLast? with
  | none => .ok ⟨[], disk.entry? [], true⟩
  | some name =>
      let directory ← walk disk maxLinks [] components.dropLast
      match directory.entry with
      | none => .error .noEntry
      | some (.directory _) =>
          if maxNameBytes < name.utf8ByteSize then .error .nameTooLong
          else
            let place := directory.place ++ [name]
            .ok ⟨place, disk.entry? place, slash⟩
      | some _ => .error .notDirectory

end DocStore.Disk
