import DocStore.Proofs.Disk.Walk
/-!
# Paths below a root

A root that has been resolved consists of names that mean themselves, or is the top.  Plain names
that are put below it, by `Path.append` or `Path.child`, extend its components (`append_eq`,
`child_concat`), and the text of the path is that much longer (`checkPath_below`).  Where the path leads
without following a link at its end is decided by the directory before its last name
(`locateEntry_concat`).

A resolved path may lead to a directory through links (`Standing`).  On a disk that has got more
entries it still leads there, and so do the names in the directory: which entry they have is told by
the place of the directory alone (`Standing.locate_name`, `Standing.locateEntry_name`).
-/

set_option autoImplicit false

namespace DocStore.Disk.Path

/-- A path as it is resolved: the top, or names that mean themselves. -/
def Resolved (path : Path) : Prop :=
  path = top ∨ path ≠ [] ∧ ∀ name ∈ path, name ≠ "" ∧ name ≠ "." ∧ name ≠ ".."

theorem Resolved.nonempty {path : Path} (resolved : Resolved path) : path ≠ [] := by
  rcases resolved with rfl | ⟨nonempty, _⟩
  · simp [top]
  · exact nonempty

theorem meaningful_push {reversed : Path}
    (meaningful : ∀ name ∈ reversed, name ≠ "" ∧ name ≠ "." ∧ name ≠ "..") (component : String) :
    ∀ name ∈ push reversed component, name ≠ "" ∧ name ≠ "." ∧ name ≠ ".." := by
  intro name member
  unfold push at member
  split at member
  · exact meaningful name member
  next notBlank =>
    split at member
    · exact meaningful name (List.mem_of_mem_drop member)
    next notAbove =>
      rcases List.mem_cons.mp member with rfl | member
      · exact ⟨fun same => notBlank (.inl same), fun same => notBlank (.inr same), notAbove⟩
      · exact meaningful name member

theorem meaningful_foldl_push (path : Path) {reversed : Path}
    (meaningful : ∀ name ∈ reversed, name ≠ "" ∧ name ≠ "." ∧ name ≠ "..") :
    ∀ name ∈ path.foldl push reversed, name ≠ "" ∧ name ≠ "." ∧ name ≠ ".." := by
  induction path generalizing reversed with
  | nil => exact meaningful
  | cons component path ih => exact ih (meaningful_push meaningful component)

theorem meaningful_normalize (path : Path) :
    ∀ name ∈ normalize path, name ≠ "" ∧ name ≠ "." ∧ name ≠ ".." := by
  intro name member
  have inFold : name ∈ path.foldl push [] := List.mem_reverse.mp member
  exact meaningful_foldl_push path (by simp) name inFold

/-- What is resolved is resolved. -/
theorem resolved_resolve (workingDirectory : Path) (text : String) :
    Resolved (resolve workingDirectory text) := by
  unfold resolve orTop
  split
  · exact .inl rfl
  next nonempty => exact .inr ⟨nonempty, meaningful_normalize _⟩

theorem foldl_push_of_meaningful (reversed : Path) {path : Path}
    (meaningful : ∀ name ∈ path, name ≠ "" ∧ name ≠ "." ∧ name ≠ "..") :
    path.foldl push reversed = path.reverse ++ reversed := by
  induction path generalizing reversed with
  | nil => rfl
  | cons name path ih =>
      obtain ⟨nonempty, notHere, notAbove⟩ := meaningful name (by simp)
      have pushed : push reversed name = name :: reversed := by
        rw [push, if_neg (not_or.mpr ⟨nonempty, notHere⟩), if_neg notAbove]
      rw [List.foldl_cons, pushed,
        ih _ fun other member => meaningful other (List.mem_cons_of_mem _ member),
        List.reverse_cons, List.append_assoc, List.singleton_append]

theorem normalize_of_meaningful {path : Path}
    (meaningful : ∀ name ∈ path, name ≠ "" ∧ name ≠ "." ∧ name ≠ "..") : normalize path = path := by
  rw [normalize, foldl_push_of_meaningful [] meaningful, List.append_nil, List.reverse_reverse]

theorem meaningful_of_plain {name : String} (plain : Plain name) :
    name ≠ "" ∧ name ≠ "." ∧ name ≠ ".." :=
  ⟨plain.nonempty, plain.notHere, plain.notAbove⟩

theorem trimmed_concat (front : Path) {name : String} (nonempty : name ≠ "") :
    trimmed (front ++ [name]) = front ++ [name] := by
  rw [trimmed, if_neg]
  simpa using nonempty

theorem child_concat (front : Path) {name : String} (nonempty : name ≠ "") (child : String) :
    Path.child (front ++ [name]) child = front ++ [name, child] := by
  rw [Path.child, trimmed_concat front nonempty, List.append_assoc]
  rfl

theorem parent_concat {front : Path} (nonempty : front ≠ []) {name : String} (named : name ≠ "") :
    parent (front ++ [name]) = front := by
  rw [parent, trimmed_concat front named, List.dropLast_concat, orTop, if_neg nonempty]

theorem name_concat (front : Path) {name : String} (nonempty : name ≠ "") :
    Path.name (front ++ [name]) = name := by
  rw [Path.name, trimmed_concat front nonempty, List.getLast?_concat, Option.getD_some]

theorem splitChars_of_not_mem {characters : List Char} (noSolidus : '/' ∉ characters) :
    splitChars characters = [characters] := by
  induction characters with
  | nil => rfl
  | cons character rest ih =>
      obtain ⟨notFirst, notRest⟩ := not_or.mp (List.mem_cons.not.mp noSolidus)
      rw [splitChars, if_neg (Ne.symm notFirst), ih notRest]

theorem split_of_not_mem {name : String} (noSolidus : '/' ∉ name.toList) : split name = [name] := by
  rw [split, splitChars_of_not_mem noSolidus, List.map_singleton, String.ofList_toList]

section

variable {root : Path} (resolved : Resolved root)
include resolved

theorem meaningful_trimmed : ∀ name ∈ root.trimmed, name ≠ "" ∧ name ≠ "." ∧ name ≠ ".." := by
  rcases resolved with rfl | ⟨_, meaningful⟩
  · simp [trimmed, top]
  · intro name member
    unfold trimmed at member
    split at member
    · exact meaningful name (List.dropLast_subset _ member)
    · exact meaningful name member

theorem eq_top_or_trimmed_eq : root = top ∨ root.trimmed = root := by
  rcases resolved with rfl | ⟨_, meaningful⟩
  · exact .inl rfl
  · have last : root.getLast? ≠ some "" := fun last =>
      (meaningful "" (List.mem_of_getLast? last)).1 rfl
    exact .inr (by rw [trimmed, if_neg last])

theorem normalize_append (rest : Path) :
    normalize (root ++ rest) = normalize (root.trimmed ++ rest) := by
  rcases eq_top_or_trimmed_eq resolved with rfl | same
  · rfl
  · rw [same]

/-- A plain name is put below a resolved root as it is. -/
theorem append_eq {name : String} (plain : Plain name) :
    root.append name = root.trimmed ++ [name] := by
  have noSolidusLast : name.toList.getLast? ≠ some '/' := fun last =>
    plain.noSolidus (List.mem_of_getLast? last)
  have normal : normalize (root ++ split name) = root.trimmed ++ [name] := by
    rw [split_of_not_mem plain.noSolidus, normalize_append resolved]
    refine normalize_of_meaningful fun other member => ?_
    rcases List.mem_append.mp member with inRoot | isName
    · exact meaningful_trimmed resolved other inRoot
    · obtain rfl : other = name := by simpa using isName
      exact meaningful_of_plain plain
  rw [Path.append, if_neg noSolidusLast, normal, orTop, if_neg (by simp)]

end

/-- Plain names below a root are a resolved path. -/
theorem resolved_below {root : Path} (resolved : Resolved root) {names : List String}
    (nonempty : names ≠ []) (plain : ∀ name ∈ names, Plain name) :
    Resolved (root.trimmed ++ names) := by
  refine .inr ⟨by simp [nonempty], fun name member => ?_⟩
  rcases List.mem_append.mp member with inRoot | inNames
  · exact meaningful_trimmed resolved name inRoot
  · exact meaningful_of_plain (plain name inNames)

theorem trimmed_below (root : Path) {names : List String} (nonempty : names ≠ [])
    (plain : ∀ name ∈ names, Plain name) : trimmed (root ++ names) = root ++ names := by
  obtain ⟨front, last, rfl⟩ := List.eq_nil_or_concat' names |>.resolve_left nonempty
  rw [← List.append_assoc]
  exact trimmed_concat _ (plain last (by simp)).nonempty

/-! ## The text of a path -/

theorem text_append (first second : Path) : text (first ++ second) = first.text ++ second.text := by
  rw [text, text, text, List.map_append, String.join_append]

theorem text_cons (name : String) (rest : Path) : text (name :: rest) = "/" ++ name ++ text rest := by
  rw [text, text, List.map_cons, String.join_cons]

theorem text_trimmed_size (root : Path) :
    root.trimmed.text.utf8ByteSize ≤ root.text.utf8ByteSize := by
  unfold trimmed
  split
  next last =>
    have parts := List.dropLast_append_getLast? _ last
    rw [← parts, text_append, String.utf8ByteSize_append, parts]
    exact Nat.le_add_right _ _
  · exact Nat.le_refl _

/-- How many bytes the text of a path gets longer by a name at most. -/
def roomForName : Nat := maxNameBytes + 1

theorem text_size_le {names : List String} (plain : ∀ name ∈ names, Plain name) :
    (text names).utf8ByteSize ≤ names.length * roomForName := by
  induction names with
  | nil => exact Nat.zero_le _
  | cons name names ih =>
      have short := (plain name (by simp)).short
      have rest := ih fun other member => plain other (List.mem_cons_of_mem _ member)
      have solidus : "/".utf8ByteSize = 1 := rfl
      rw [text_cons, String.utf8ByteSize_append, String.utf8ByteSize_append, List.length_cons,
        Nat.succ_mul, solidus]
      simp only [roomForName] at rest ⊢
      omega

theorem mem_text {path : Path} {character : Char} :
    character ∈ path.text.toList ↔ ∃ name ∈ path, character = '/' ∨ character ∈ name.toList := by
  rw [text, String.toList_join, List.mem_flatMap]
  constructor
  · rintro ⟨part, isPart, member⟩
    obtain ⟨name, inPath, rfl⟩ := List.mem_map.mp isPart
    rw [String.toList_append] at member
    exact ⟨name, inPath, by simpa using member⟩
  · rintro ⟨name, inPath, member⟩
    exact ⟨_, List.mem_map_of_mem inPath, by simpa using member⟩

/-- Only the character zero is written with a byte zero. -/
theorem zero_mem_utf8EncodeChar_iff (character : Char) :
    0 ∈ String.utf8EncodeChar character ↔ character = '\x00' := by
  have isZero {number : Nat} (small : number < 256) : 0 = UInt8.ofNat number ↔ number = 0 := by
    rw [← UInt8.toNat_inj, UInt8.toNat_ofNat', UInt8.toNat_zero]
    omega
  have size : character.val.toNat < 2 ^ 32 := character.val.toNat_lt
  rw [← Char.toNat_inj, Char.toNat, Char.toNat]
  change _ ↔ character.val.toNat = 0
  unfold String.utf8EncodeChar
  simp only []
  split
  · rw [List.mem_singleton, isZero (by omega)]
  · split
    · rw [List.mem_cons, List.mem_singleton, isZero (by omega), isZero (by omega)]
      omega
    · split
      · rw [List.mem_cons, List.mem_cons, List.mem_singleton, isZero (by omega), isZero (by omega),
          isZero (by omega)]
        omega
      · rw [List.mem_cons, List.mem_cons, List.mem_cons, List.mem_singleton, isZero (by omega),
          isZero (by omega), isZero (by omega), isZero (by omega)]
        omega

/-- A text has a byte zero if it has the character zero. -/
theorem contains_zero_iff (text : String) :
    text.toByteArray.data.toList.contains 0 = true ↔ '\x00' ∈ text.toList := by
  have bytes : text.toByteArray = text.toList.utf8Encode := by
    rw [← String.toByteArray_ofList, String.ofList_toList]
  rw [List.contains_iff_mem, bytes, List.utf8Encode, List.data_toByteArray, List.toList_toArray,
    List.mem_flatMap]
  simp only [zero_mem_utf8EncodeChar_iff, exists_eq_right]

/-- A call can be made on a path whose text is neither empty nor too long, and without zeros. -/
theorem checkPath_eq_ok_iff {path : Path} :
    checkPath path = .ok () ↔ '\x00' ∉ path.text.toList ∧ path.text ≠ ""
      ∧ path.text.utf8ByteSize ≤ maxPathBytes := by
  unfold checkPath checkText
  rw [← contains_zero_iff, ← Nat.not_lt]
  split
  next isZero => exact iff_of_false (by simp) fun all => all.1 isZero
  next noZero =>
    split
    next empty => exact iff_of_false (by simp) fun all => all.2.1 empty
    next notEmpty =>
      split
      next long => exact iff_of_false (by simp) fun all => all.2.2 long
      next notLong => exact iff_of_true rfl ⟨noZero, notEmpty, notLong⟩

/-- A call can be made on plain names below a root that leaves room for them. -/
theorem checkPath_below {root : Path} {names : List String} (nonempty : names ≠ [])
    (plain : ∀ name ∈ names, Plain name) (isPath : checkPath root = .ok ())
    (room : root.text.utf8ByteSize + names.length * roomForName ≤ maxPathBytes) :
    checkPath (root.trimmed ++ names) = .ok () := by
  obtain ⟨noZero, _, _⟩ := checkPath_eq_ok_iff.mp isPath
  refine checkPath_eq_ok_iff.mpr ⟨fun member => ?_, fun empty => ?_, ?_⟩
  · obtain ⟨name, member, isZero⟩ := mem_text.mp member
    rcases List.mem_append.mp member with inRoot | inNames
    · have inPath : name ∈ root := by
        unfold trimmed at inRoot
        split at inRoot
        · exact List.dropLast_subset _ inRoot
        · exact inRoot
      exact noZero (mem_text.mpr ⟨name, inPath, isZero⟩)
    · rcases isZero with isSolidus | isZero
      · exact absurd isSolidus (by decide)
      · exact (plain name inNames).noZero isZero
  · obtain ⟨first, rest, rfl⟩ := List.exists_cons_of_ne_nil nonempty
    have member : '/' ∈ (root.trimmed ++ first :: rest).text.toList :=
      mem_text.mpr ⟨first, by simp, .inl rfl⟩
    rw [empty] at member
    simp at member
  · have size := text_size_le plain
    have trimmedSize := text_trimmed_size root
    rw [text_append, String.utf8ByteSize_append]
    omega

/-- Where a call can be made on a path, it can be made on the paths that lead there. -/
theorem checkPath_of_append {front rest : Path} (nonempty : front ≠ [])
    (isPath : checkPath (front ++ rest) = .ok ()) : checkPath front = .ok () := by
  obtain ⟨noZero, _, notLong⟩ := checkPath_eq_ok_iff.mp isPath
  rw [text_append, String.toList_append, List.mem_append, not_or] at noZero
  rw [text_append, String.utf8ByteSize_append] at notLong
  refine checkPath_eq_ok_iff.mpr ⟨noZero.1, fun empty => ?_, by omega⟩
  obtain ⟨name, front, rfl⟩ := List.exists_cons_of_ne_nil nonempty
  rw [text_cons] at empty
  simpa using congrArg String.utf8ByteSize empty

/-- Where a call can be made on one name of a directory, it can be made on another one that is not
too long. -/
theorem checkPath_sibling {front : Path} {name other : String}
    (isPath : checkPath (front ++ [name]) = .ok ()) (plain : Plain other)
    (room : (text (front ++ [name])).utf8ByteSize + other.utf8ByteSize
      ≤ maxPathBytes + name.utf8ByteSize) : checkPath (front ++ [other]) = .ok () := by
  obtain ⟨noZero, _, _⟩ := checkPath_eq_ok_iff.mp isPath
  have last (last : String) : text [last] = "/" ++ last := by
    rw [text_cons]
    exact String.append_empty
  rw [text_append, String.toList_append, List.mem_append, not_or] at noZero
  rw [text_append, last, String.utf8ByteSize_append, String.utf8ByteSize_append] at room
  refine checkPath_eq_ok_iff.mpr ⟨?_, fun empty => ?_, ?_⟩
  · rw [text_append, last, String.toList_append, String.toList_append, List.mem_append,
      List.mem_append]
    rintro (inFront | isSolidus | inName)
    · exact noZero.1 inFront
    · exact absurd isSolidus (by decide)
    · exact plain.noZero inName
  · have member : '/' ∈ (text (front ++ [other])).toList :=
      mem_text.mpr ⟨other, by simp, .inl rfl⟩
    rw [empty] at member
    simp at member
  · rw [text_append, last, String.utf8ByteSize_append, String.utf8ByteSize_append]
    omega

/-- What is made of the directory before a plain last name, where a link at the end is not
followed. -/
theorem locateEntry_concat {path : Path} {last : String} (plain : Plain last)
    (isPath : checkPath (path ++ [last]) = .ok ()) (disk : Disk) :
    disk.locateEntry (path ++ [last])
      = (walk disk maxLinks [] path).bind fun directory =>
          match directory.entry with
          | none => .error .noEntry
          | some (.directory _) =>
              .ok ⟨directory.place ++ [last], disk.entry? (directory.place ++ [last]), false⟩
          | some _ => .error .notDirectory := by
  have trimmed : (path ++ [last]).trimmed = path ++ [last] := trimmed_concat path plain.nonempty
  have noSlash : (some last == some "") = false := by simpa using plain.nonempty
  have short : ¬ maxNameBytes < last.utf8ByteSize := Nat.not_lt.mpr plain.short
  unfold locateEntry
  cases walked : disk.walk maxLinks [] path with
  | error errno =>
      simp only [isPath, trimmed, List.getLast?_concat, List.dropLast_concat, walked, bind,
        Except.bind]
  | ok directory =>
      obtain ⟨place, _ | _ | _ | _, slash⟩ := directory <;>
        simp only [isPath, trimmed, noSlash, List.getLast?_concat, List.dropLast_concat,
          if_neg short, walked, bind, Except.bind]

end DocStore.Disk.Path

namespace DocStore.Disk

/-! ## Directories that are there -/

theorem locate_eq_ok_iff {disk : Disk} {path : Path} {target : Target} :
    disk.locate path = .ok target
      ↔ checkPath path = .ok () ∧ walk disk maxLinks [] path = .ok target := by
  unfold locate
  cases checkPath path <;> simp [bind, Except.bind]

/-- A resolved path leads to a directory. -/
structure Standing (origin : Disk) (directory : Path) (home : Place) : Prop where
  resolved : Path.Resolved directory
  rooted : Rooted origin
  leads : ∃ identity, origin.locate directory = .ok ⟨home, some (.directory identity), false⟩

namespace Standing

variable {origin : Disk} {directory : Path} {home : Place} (standing : Standing origin directory home)
include standing

theorem checkPath : Disk.checkPath directory = .ok () := by
  obtain ⟨identity, located⟩ := standing.leads
  exact (locate_eq_ok_iff.mp located).1

theorem walk_trimmed :
    ∃ identity, walk origin maxLinks [] directory.trimmed
      = .ok ⟨home, some (.directory identity), false⟩ := by
  obtain ⟨identity, located⟩ := standing.leads
  refine ⟨identity, ?_⟩
  have arrives := (locate_eq_ok_iff.mp located).2
  rcases Path.eq_top_or_trimmed_eq standing.resolved with rfl | same
  · rwa [walk_eq, Path.top, walkWith_blank (.inl rfl), ← walk_eq] at arrives
  · rwa [same]

section

variable {disk : Disk} (extended : Extends origin disk)
include extended

theorem entry?_home : ∃ identity, disk.entry? home = some (.directory identity) := by
  obtain ⟨identity, arrives⟩ := standing.walk_trimmed
  exact ⟨identity, extended _ _ (entry?_of_walk arrives)⟩

/-- From the directory a walk goes on to what lies below it. -/
theorem walk_below :
    ∃ links, ∀ rest, walk disk maxLinks [] (directory.trimmed ++ rest) = walk disk links home rest := by
  obtain ⟨identity, arrives⟩ := standing.walk_trimmed
  exact walk_append extended maxLinks directory.trimmed [] arrives

theorem locate_self :
    ∃ identity, disk.locate directory = .ok ⟨home, some (.directory identity), false⟩ := by
  obtain ⟨identity, located⟩ := standing.leads
  obtain ⟨isPath, arrives⟩ := locate_eq_ok_iff.mp located
  exact ⟨identity, locate_eq_ok_iff.mpr ⟨isPath, walk_extends extended arrives⟩⟩

theorem status_self : ∃ identity, disk.status directory = .ok ⟨true, identity⟩ := by
  obtain ⟨identity, located⟩ := standing.locate_self extended
  exact ⟨identity, by unfold Disk.status; rw [located]; rfl⟩

/-- The directory has an entry of its own, be it a directory or a link to one. -/
theorem makeDirectory_self : disk.makeDirectory directory = .error .exists := by
  have isPath := standing.checkPath
  rcases standing.resolved with rfl | ⟨nonempty, meaningful⟩
  · have located : disk.locateEntry Path.top = .ok ⟨[], some (.directory 0), true⟩ := by
      unfold Disk.locateEntry
      rw [isPath]
      rfl
    unfold makeDirectory
    rw [located]
    rfl
  · obtain ⟨front, name, rfl⟩ := (List.eq_nil_or_concat' directory).resolve_left nonempty
    obtain ⟨named, notHere, notAbove⟩ := meaningful name (by simp)
    have trimmed := Path.trimmed_concat front named
    obtain ⟨identity, arrives⟩ := standing.walk_trimmed
    rw [trimmed] at arrives
    obtain ⟨above, identity', leads, short, entry, found⟩ :=
      walk_dropLast standing.rooted named notHere notAbove maxLinks front [] ⟨0, rfl⟩ arrives
    unfold makeDirectory Disk.locateEntry
    simp only [isPath, trimmed, List.getLast?_concat, List.dropLast_concat,
      walk_extends extended leads, if_neg short, extended _ _ found, bind, Except.bind]

variable {name : String} (plain : Plain name)
  (isPath : Disk.checkPath (directory.trimmed ++ [name]) = .ok ())
include plain isPath

/-- A name in the directory has the entry that lies at its place. -/
theorem locateEntry_name :
    disk.locateEntry (directory.trimmed ++ [name])
      = .ok ⟨home ++ [name], disk.entry? (home ++ [name]), false⟩ := by
  obtain ⟨identity, arrives⟩ := standing.walk_trimmed
  rw [Path.locateEntry_concat plain isPath, walk_extends extended arrives]
  rfl

/-- The same where a link at the end would be followed. -/
theorem locate_name (noLink : ∀ target, disk.entry? (home ++ [name]) ≠ some (.link target)) :
    disk.locate (directory.trimmed ++ [name])
      = .ok ⟨home ++ [name], disk.entry? (home ++ [name]), false⟩ := by
  obtain ⟨links, goesOn⟩ := standing.walk_below extended
  have arrives := walk_names links (show ∀ other ∈ [], Plain other from fun _ member => nomatch member)
    (leads_nil disk home) plain (by rwa [List.append_nil])
  rw [List.append_nil, List.nil_append] at arrives
  exact locate_eq_ok_iff.mpr ⟨isPath, (goesOn [name]).trans arrives⟩

end

end Standing

end DocStore.Disk
