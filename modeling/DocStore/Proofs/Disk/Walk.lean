import DocStore.Proofs.Disk.Entries
/-!
# Paths below a directory

A walk that ends at a directory goes on from there, whatever follows, also on a disk that has more
entries (`walk_append`).  From a directory whose entries are no links, a walk along plain names is
decided by the entries on the way: it arrives when every name before the last is one of a directory
(`walk_names`), and finds nothing when one of them is missing (`walk_names_missing`).
-/

set_option autoImplicit false

namespace DocStore.Disk

/-- A name that a path can end in: it means itself, and it is not too long. -/
structure Plain (name : String) : Prop where
  nonempty : name ≠ ""
  notHere : name ≠ "."
  notAbove : name ≠ ".."
  short : name.utf8ByteSize ≤ maxNameBytes
  noSolidus : '/' ∉ name.toList
  noZero : '\x00' ∉ name.toList

instance (name : String) : Decidable (Plain name) :=
  decidable_of_iff (name ≠ "" ∧ name ≠ "." ∧ name ≠ ".." ∧ name.utf8ByteSize ≤ maxNameBytes
      ∧ '/' ∉ name.toList ∧ '\x00' ∉ name.toList)
    ⟨fun ⟨a, b, c, d, e, f⟩ => ⟨a, b, c, d, e, f⟩, fun ⟨a, b, c, d, e, f⟩ => ⟨a, b, c, d, e, f⟩⟩

/-- Every entry of one disk is on another one. -/
def Extends (before after : Disk) : Prop :=
  ∀ place entry, before.entry? place = some entry → after.entry? place = some entry

theorem Extends.refl (disk : Disk) : Extends disk disk := fun _ _ found => found

/-- How a walk goes on behind a link. -/
def following (disk : Disk) : Nat → Place → List String → Except Errno Target
  | 0 => fun _ _ => .error .loop
  | links + 1 => walk disk links

theorem walk_eq (disk : Disk) (links : Nat) (here : Place) (path : List String) :
    walk disk links here path = walkWith disk (following disk links) here path := by
  cases links <;> rfl

section

variable {disk : Disk} {follow : Place → List String → Except Errno Target} {here : Place}
  {name : String} {rest : List String}

theorem walkWith_blank (blank : name = "" ∨ name = ".") :
    walkWith disk follow here (name :: rest) = walkWith disk follow here rest := by
  rw [walkWith, if_pos blank]

theorem walkWith_above (notBlank : ¬ (name = "" ∨ name = ".")) (above : name = "..") :
    walkWith disk follow here (name :: rest) = walkWith disk follow here.dropLast rest := by
  rw [walkWith, if_neg notBlank, if_pos above]

theorem walkWith_long (notBlank : ¬ (name = "" ∨ name = ".")) (notAbove : name ≠ "..")
    (long : maxNameBytes < name.utf8ByteSize) :
    walkWith disk follow here (name :: rest) = .error .nameTooLong := by
  rw [walkWith, if_neg notBlank, if_neg notAbove, if_pos long]

/-- What a walk does at a name that is looked up, by the entry that it finds. -/
theorem walkWith_name (notBlank : ¬ (name = "" ∨ name = ".")) (notAbove : name ≠ "..")
    (short : ¬ maxNameBytes < name.utf8ByteSize) :
    walkWith disk follow here (name :: rest)
      = match disk.entry? (here ++ [name]) with
        | some (.directory _) => walkWith disk follow (here ++ [name]) rest
        | some (.link target) =>
            if target = "" then .error .noEntry
            else if Path.isAbsolute target then follow [] (Path.split target ++ rest)
            else follow here (Path.split target ++ rest)
        | some (.file identity content) =>
            match endsHere rest with
            | some slash => .ok ⟨here ++ [name], some (.file identity content), slash⟩
            | none => .error .notDirectory
        | none =>
            match endsHere rest with
            | some slash => .ok ⟨here ++ [name], none, slash⟩
            | none => .error .noEntry := by
  rw [walkWith, if_neg notBlank, if_neg notAbove, if_neg short]
  cases found : disk.entry? (here ++ [name]) with
  | none => cases endsHere rest <;> rfl
  | some entry => cases entry <;> cases endsHere rest <;> rfl

end

/-- A walk that ends at a directory goes on from there, also where the disk has got more entries. -/
theorem walk_append {before after : Disk} (extended : Extends before after) {home : Place}
    {identity : Nat} (links : Nat) :
    ∀ (front : List String) (here : Place),
      walk before links here front = .ok ⟨home, some (.directory identity), false⟩ →
      ∃ links', ∀ rest, walk after links here (front ++ rest) = walk after links' home rest := by
  induction links using Nat.strongRecOn with
  | ind links inner =>
      intro front
      -- the names in front are walked one by one; behind a link fewer links are left
      induction front with
      | nil =>
          intro here arrives
          rw [walk_eq, walkWith] at arrives
          obtain ⟨rfl, _⟩ := Target.mk.inj (Except.ok.inj arrives)
          exact ⟨links, fun rest => rfl⟩
      | cons name front outer =>
          intro here arrives
          simp only [walk_eq _ links, List.cons_append] at arrives outer ⊢
          by_cases blank : name = "" ∨ name = "."
          · simp only [walkWith_blank blank] at arrives ⊢
            exact outer here arrives
          by_cases above : name = ".."
          · simp only [walkWith_above blank above] at arrives ⊢
            exact outer _ arrives
          by_cases long : maxNameBytes < name.utf8ByteSize
          · rw [walkWith_long blank above long] at arrives
            exact absurd arrives (by simp)
          simp only [walkWith_name blank above long] at arrives ⊢
          cases found : before.entry? (here ++ [name]) with
          | none =>
              simp only [found] at arrives
              cases ends : endsHere front <;> simp [ends] at arrives
          | some entry =>
              simp only [found] at arrives
              simp only [extended _ _ found]
              cases entry with
              | file _ _ => cases ends : endsHere front <;> simp [ends] at arrives
              | directory _ => exact outer _ arrives
              | link target =>
                  simp only at arrives ⊢
                  split at arrives
                  · exact absurd arrives (by simp)
                  next nonempty =>
                  simp only [if_neg nonempty]
                  cases links with
                  | zero => split at arrives <;> exact absurd arrives (by simp [following])
                  | succ links =>
                      simp only [following] at arrives ⊢
                      split at arrives
                      next absolute =>
                        simp only [if_pos absolute, ← List.append_assoc]
                        exact inner links (Nat.lt_succ_self links) _ _ arrives
                      next relative =>
                        simp only [if_neg relative, ← List.append_assoc]
                        exact inner links (Nat.lt_succ_self links) _ _ arrives

/-- A walk that ends at a directory ends at what is there. -/
theorem entry?_of_walk {disk : Disk} {links : Nat} {front : List String} {here home : Place}
    {identity : Nat}
    (arrives : walk disk links here front = .ok ⟨home, some (.directory identity), false⟩) :
    disk.entry? home = some (.directory identity) := by
  obtain ⟨links', goesOn⟩ := walk_append (Extends.refl disk) links front here arrives
  have ends := goesOn []
  rw [List.append_nil, arrives, walk_eq, walkWith] at ends
  exact (Target.mk.inj (Except.ok.inj ends)).2.1.symm

/-- A walk that ends at a directory does not tell of a solidus behind it. -/
theorem slash_walkWith {disk : Disk} {follow : Place → List String → Except Errno Target}
    (follows : ∀ here path target, follow here path = .ok target →
      target.entry.any Entry.isDirectory = true → target.slash = false)
    {here : Place} {path : List String} {target : Target}
    (arrives : walkWith disk follow here path = .ok target)
    (isDirectory : target.entry.any Entry.isDirectory = true) : target.slash = false := by
  induction path generalizing here with
  | nil =>
      obtain rfl := Except.ok.inj arrives
      rfl
  | cons name rest ih =>
      by_cases blank : name = "" ∨ name = "."
      · rw [walkWith_blank blank] at arrives
        exact ih arrives
      by_cases above : name = ".."
      · rw [walkWith_above blank above] at arrives
        exact ih arrives
      by_cases long : maxNameBytes < name.utf8ByteSize
      · rw [walkWith_long blank above long] at arrives
        cases arrives
      rw [walkWith_name blank above long] at arrives
      cases found : disk.entry? (here ++ [name]) with
      | none =>
          rw [found] at arrives
          cases ends : endsHere rest with
          | none =>
              rw [ends] at arrives
              cases arrives
          | some slash =>
              rw [ends] at arrives
              obtain rfl := Except.ok.inj arrives
              cases isDirectory
      | some entry =>
          rw [found] at arrives
          cases entry with
          | directory _ => exact ih arrives
          | link text =>
              dsimp only at arrives
              split at arrives
              · cases arrives
              · split at arrives <;> exact follows _ _ _ arrives isDirectory
          | file _ _ =>
              cases ends : endsHere rest with
              | none =>
                  rw [ends] at arrives
                  cases arrives
              | some slash =>
                  rw [ends] at arrives
                  obtain rfl := Except.ok.inj arrives
                  cases isDirectory

theorem slash_walk {disk : Disk} (links : Nat) {here : Place} {path : List String} {target : Target}
    (arrives : walk disk links here path = .ok target)
    (isDirectory : target.entry.any Entry.isDirectory = true) : target.slash = false := by
  induction links generalizing here path target with
  | zero => exact slash_walkWith (fun _ _ _ goesOn => by cases goesOn) arrives isDirectory
  | succ links ih => exact slash_walkWith (fun _ _ _ goesOn => ih goesOn) arrives isDirectory

/-- On a disk that has got more entries a walk to a directory ends at the same one. -/
theorem walk_extends {before after : Disk} (extended : Extends before after) {links : Nat}
    {front : List String} {here home : Place} {identity : Nat}
    (arrives : walk before links here front = .ok ⟨home, some (.directory identity), false⟩) :
    walk after links here front = .ok ⟨home, some (.directory identity), false⟩ := by
  obtain ⟨links', goesOn⟩ := walk_append extended links front here arrives
  have ends := goesOn []
  rwa [List.append_nil, walk_eq after links', walkWith,
    extended _ _ (entry?_of_walk arrives)] at ends

theorem endsHere_append (front rest : List String) {name : String} (nonempty : name ≠ "") :
    endsHere (front ++ name :: rest) = none := by
  unfold endsHere
  split
  next none => simp at none
  next blank =>
    cases front with
    | nil => exact absurd (List.cons.inj blank).1 nonempty
    | cons first front => simp at blank
  next => rfl

/-- Every entry of the disk lies in a directory. -/
def Rooted (disk : Disk) : Prop :=
  ∀ place entry, disk.entry? place = some entry →
    ∃ identity, disk.entry? place.dropLast = some (.directory identity)

theorem rooted_empty : Rooted empty := by
  intro place entry found
  cases place with
  | nil => exact ⟨0, rfl⟩
  | cons name rest => cases found

/-- A walk that arrives comes through the directory before its last name. -/
theorem walk_dropLast {disk : Disk} (rooted : Rooted disk) {name : String}
    (nonempty : name ≠ "") (notHere : name ≠ ".") (notAbove : name ≠ "..")
    {home : Place} {identity : Nat} (links : Nat) :
    ∀ (front : List String) (here : Place),
      (∃ identity, disk.entry? here = some (.directory identity)) →
      walk disk links here (front ++ [name]) = .ok ⟨home, some (.directory identity), false⟩ →
      ∃ directory identity', walk disk links here front
          = .ok ⟨directory, some (.directory identity'), false⟩
        ∧ ¬ maxNameBytes < name.utf8ByteSize
        ∧ ∃ entry, disk.entry? (directory ++ [name]) = some entry := by
  have notBlank : ¬ (name = "" ∨ name = ".") := not_or.mpr ⟨nonempty, notHere⟩
  induction links using Nat.strongRecOn with
  | ind links inner =>
      intro front
      induction front with
      | nil =>
          rintro here ⟨identity', isDirectory⟩ arrives
          refine ⟨here, identity', by rw [walk_eq, walkWith, isDirectory], ?_⟩
          rw [walk_eq, List.nil_append] at arrives
          by_cases long : maxNameBytes < name.utf8ByteSize
          · rw [walkWith_long notBlank notAbove long] at arrives
            exact absurd arrives (by simp)
          rw [walkWith_name notBlank notAbove long] at arrives
          cases found : disk.entry? (here ++ [name]) with
          | none => simp [found, endsHere] at arrives
          | some entry => exact ⟨long, entry, rfl⟩
      | cons first front outer =>
          intro here isDirectory arrives
          simp only [walk_eq _ links, List.cons_append] at arrives outer ⊢
          by_cases blank : first = "" ∨ first = "."
          · simp only [walkWith_blank blank] at arrives ⊢
            exact outer here isDirectory arrives
          by_cases above : first = ".."
          · simp only [walkWith_above blank above] at arrives ⊢
            obtain ⟨identity', isDirectory⟩ := isDirectory
            exact outer _ (rooted _ _ isDirectory) arrives
          by_cases long : maxNameBytes < first.utf8ByteSize
          · rw [walkWith_long blank above long] at arrives
            exact absurd arrives (by simp)
          have goesOn : endsHere (front ++ [name]) = none := endsHere_append front [] nonempty
          simp only [walkWith_name blank above long, goesOn] at arrives ⊢
          cases found : disk.entry? (here ++ [first]) with
          | none => simp [found] at arrives
          | some entry =>
              simp only [found] at arrives ⊢
              cases entry with
              | file _ _ => simp at arrives
              | directory identity' => exact outer _ ⟨identity', found⟩ arrives
              | link target =>
                  simp only at arrives ⊢
                  split at arrives
                  · exact absurd arrives (by simp)
                  next target =>
                  simp only [if_neg target]
                  cases links with
                  | zero => split at arrives <;> exact absurd arrives (by simp [following])
                  | succ links =>
                      simp only [following] at arrives ⊢
                      split at arrives
                      next absolute =>
                        simp only [if_pos absolute, ← List.append_assoc] at arrives ⊢
                        exact inner links (Nat.lt_succ_self links) _ _ ⟨0, rfl⟩ arrives
                      next relative =>
                        simp only [if_neg relative, ← List.append_assoc] at arrives ⊢
                        exact inner links (Nat.lt_succ_self links) _ _ isDirectory arrives

/-! ## Plain names below a directory -/

/-- Whether every name of a path leads on to a directory below a place. -/
def Leads (disk : Disk) (home : Place) (names : List String) : Prop :=
  ∀ front, front <+: names → front ≠ [] →
    ∃ identity, disk.entry? (home ++ front) = some (.directory identity)

theorem leads_nil (disk : Disk) (home : Place) : Leads disk home [] := by
  intro front isFront nonempty
  exact absurd (List.prefix_nil.mp isFront) nonempty

section

variable {disk : Disk} {links : Nat} {home : Place} {names : List String}

theorem walk_directory {name : String} (plain : Plain name) {identity : Nat}
    (isDirectory : disk.entry? (home ++ [name]) = some (.directory identity)) (rest : List String) :
    walk disk links home (name :: rest) = walk disk links (home ++ [name]) rest := by
  have notBlank : ¬ (name = "" ∨ name = ".") := not_or.mpr ⟨plain.nonempty, plain.notHere⟩
  rw [walk_eq, walkWith_name notBlank plain.notAbove (Nat.not_lt.mpr plain.short), isDirectory,
    walk_eq]

variable (links) in
/-- A walk goes through directories. -/
theorem walk_directories (plain : ∀ name ∈ names, Plain name) (leads : Leads disk home names)
    (rest : List String) :
    walk disk links home (names ++ rest) = walk disk links (home ++ names) rest := by
  induction names generalizing home with
  | nil => rw [List.nil_append, List.append_nil]
  | cons name names ih =>
      obtain ⟨identity, isDirectory⟩ := leads [name] (by simp) (by simp)
      have leadsOn : Leads disk (home ++ [name]) names := by
        intro front isFront nonempty
        rw [List.append_assoc, List.singleton_append]
        exact leads (name :: front) (List.cons_prefix_cons.mpr ⟨rfl, isFront⟩) (by simp)
      rw [List.cons_append, walk_directory (plain name (by simp)) isDirectory,
        ih (fun other member => plain other (List.mem_cons_of_mem _ member)) leadsOn,
        List.append_assoc, List.singleton_append]

variable (links) in
/-- A walk along plain names arrives at the last of them. -/
theorem walk_names (plain : ∀ name ∈ names, Plain name) (leads : Leads disk home names)
    {last : String} (plainLast : Plain last)
    (noLink : ∀ target, disk.entry? (home ++ names ++ [last]) ≠ some (.link target)) :
    walk disk links home (names ++ [last])
      = .ok ⟨home ++ names ++ [last], disk.entry? (home ++ names ++ [last]), false⟩ := by
  have notBlank : ¬ (last = "" ∨ last = ".") := not_or.mpr ⟨plainLast.nonempty, plainLast.notHere⟩
  rw [walk_directories links plain leads, walk_eq,
    walkWith_name notBlank plainLast.notAbove (Nat.not_lt.mpr plainLast.short)]
  cases found : disk.entry? (home ++ names ++ [last]) with
  | none => rfl
  | some entry =>
      cases entry with
      | file _ _ => rfl
      | directory _ => simp only [walkWith, found]
      | link target => exact absurd found (noLink target)

variable (links) in
/-- A walk finds nothing where a name before the last is missing. -/
theorem walk_names_missing (plain : ∀ name ∈ names, Plain name) (leads : Leads disk home names)
    {missing next : String} (plainMissing : Plain missing) (plainNext : Plain next)
    (rest : List String) (isMissing : disk.entry? (home ++ names ++ [missing]) = none) :
    walk disk links home (names ++ missing :: next :: rest) = .error .noEntry := by
  have notBlank : ¬ (missing = "" ∨ missing = ".") :=
    not_or.mpr ⟨plainMissing.nonempty, plainMissing.notHere⟩
  have goesOn : endsHere (next :: rest) = none := endsHere_append [] rest plainNext.nonempty
  rw [walk_directories links plain leads, walk_eq,
    walkWith_name notBlank plainMissing.notAbove (Nat.not_lt.mpr plainMissing.short), isMissing]
  simp only [goesOn]

variable (links) in
/-- A walk does not go through a file. -/
theorem walk_names_file (plain : ∀ name ∈ names, Plain name) (leads : Leads disk home names)
    {file next : String} (plainFile : Plain file) (plainNext : Plain next) (rest : List String)
    {identity : Nat} {content : String}
    (isFile : disk.entry? (home ++ names ++ [file]) = some (.file identity content)) :
    walk disk links home (names ++ file :: next :: rest) = .error .notDirectory := by
  have notBlank : ¬ (file = "" ∨ file = ".") := not_or.mpr ⟨plainFile.nonempty, plainFile.notHere⟩
  have goesOn : endsHere (next :: rest) = none := endsHere_append [] rest plainNext.nonempty
  rw [walk_directories links plain leads, walk_eq,
    walkWith_name notBlank plainFile.notAbove (Nat.not_lt.mpr plainFile.short), isFile]
  simp only [goesOn]

end

end DocStore.Disk
