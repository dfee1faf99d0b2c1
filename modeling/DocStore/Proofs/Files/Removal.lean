import DocStore.Proofs.Files.Damaged
/-!
# Removing among damaged files

A storage reads, judges and removes the files of a collection one by one, in the order of their
names.  `removal` says how that ends and `wantedFiles` which files are gone then, whatever the files
hold (`deleteMatching_shelf`).  When a damaged file stops it, the wanted documents before that file
are gone, so a removal that fails is all or nothing exactly when none of the files before holds one
(`deleteMatching_damaged`).
-/

set_option autoImplicit false

namespace DocStore.FileStore

open Disk (Branch Path Place Plain Vacant)
open Files (Named)
open Host (Secures)

/-! ## What is removed -/

/-- The documents that are wanted among the files before the first damaged one, each with the name
of its file. -/
def wantedFiles (wanted : Json → Bool) (files : List (String × String)) : List (String × Json) :=
  (files.takeWhile fun file => !documentForm.isDamaged file.2).filterMap fun file =>
    ((documentForm.in? file.2).filter wanted).map fun document => (file.1, document)

/-- How the removal of the wanted documents of some files ends, when some have been removed before:
it fails at the first damaged file, unless the limit is reached by then. -/
def removal (directory : Path) (wanted : Json → Bool) (limit : Storage.Limit) (removed : Nat)
    (files : List (String × String)) : Except Failure (List Json) :=
  match files.find? fun file => documentForm.isDamaged file.2,
    limit.reached (removed + (wantedFiles wanted files).length) with
  | some file, .ok false => .error (documentForm.failure (directory.child file.1) file.2)
  | _, _ => .ok ((limit.start removed (wantedFiles wanted files)).map Prod.snd)

/-- A branch without some files of a directory. -/
def withoutFiles (branch : Branch) (directory files : List String) : Branch := fun names =>
  if names ∈ files.map fun file => directory ++ [file] then none else branch names

section

variable {wanted : Json → Bool} {file : String × String} {rest : List (String × String)}

theorem wantedFiles_damaged (isDamaged : documentForm.isDamaged file.2 = true) :
    wantedFiles wanted (file :: rest) = [] := by
  simp [wantedFiles, isDamaged]

theorem wantedFiles_skip (notDamaged : documentForm.isDamaged file.2 = false)
    (unwanted : (documentForm.in? file.2).filter wanted = none) :
    wantedFiles wanted (file :: rest) = wantedFiles wanted rest := by
  simp [wantedFiles, notDamaged, unwanted]

theorem wantedFiles_cons (notDamaged : documentForm.isDamaged file.2 = false) {document : Json}
    (isWanted : (documentForm.in? file.2).filter wanted = some document) :
    wantedFiles wanted (file :: rest) = (file.1, document) :: wantedFiles wanted rest := by
  simp [wantedFiles, notDamaged, isWanted]

section

variable {directory : Path} {limit : Storage.Limit} {removed : Nat}

theorem removal_nil : removal directory wanted limit removed [] = .ok [] := by
  simp [removal, wantedFiles]

/-- Once the limit is reached nothing is read any more. -/
theorem removal_reached (isReached : limit.reached removed = .ok true)
    (nothing : ∀ list : List (String × Json), limit.start removed list = [])
    (files : List (String × String)) : removal directory wanted limit removed files = .ok [] := by
  rw [removal, Storage.Limit.reached_add isReached, nothing]
  cases files.find? fun file => documentForm.isDamaged file.2 <;> rfl

theorem removal_damaged (notReached : limit.reached removed = .ok false)
    (isDamaged : documentForm.isDamaged file.2 = true) :
    removal directory wanted limit removed (file :: rest)
      = .error (documentForm.failure (directory.child file.1) file.2) := by
  rw [removal, wantedFiles_damaged isDamaged, List.length_nil, Nat.add_zero, notReached,
    List.find?_cons, isDamaged]

theorem removal_skip (notDamaged : documentForm.isDamaged file.2 = false)
    (unwanted : (documentForm.in? file.2).filter wanted = none) :
    removal directory wanted limit removed (file :: rest)
      = removal directory wanted limit removed rest := by
  rw [removal, removal, wantedFiles_skip notDamaged unwanted, List.find?_cons, notDamaged]

theorem removal_cons (oneMore : ∀ (head : String × Json) (rest : List (String × Json)),
      limit.start removed (head :: rest) = head :: limit.start (removed + 1) rest)
    (notDamaged : documentForm.isDamaged file.2 = false) {document : Json}
    (isWanted : (documentForm.in? file.2).filter wanted = some document) :
    removal directory wanted limit removed (file :: rest)
      = (removal directory wanted limit (removed + 1) rest).map (document :: ·) := by
  rw [removal, removal, wantedFiles_cons notDamaged isWanted, List.find?_cons, notDamaged, oneMore,
    List.length_cons, Nat.add_comm _ 1, ← Nat.add_assoc]
  cases rest.find? fun file => documentForm.isDamaged file.2 with
  | none => rfl
  | some damaged =>
      cases limit.reached (removed + 1 + (wantedFiles wanted rest).length) with
      | error failure => rfl
      | ok isReached => cases isReached <;> rfl

end

/-- What is wanted behind the first damaged file does not matter. -/
theorem wantedFiles_split {before : List (String × String)}
    (sound : ∀ other ∈ before, documentForm.isDamaged other.2 = false)
    (isDamaged : documentForm.isDamaged file.2 = true) :
    wantedFiles wanted (before ++ file :: rest) = wantedFiles wanted before := by
  have all : ∀ other ∈ before, (!documentForm.isDamaged other.2) = true := by simpa using sound
  rw [wantedFiles, wantedFiles, List.takeWhile_append_of_pos all,
    List.takeWhile_eq_self_iff.mpr all, List.takeWhile_cons, isDamaged]
  simp

theorem wantedFiles_subset (wanted : Json → Bool) (files : List (String × String)) :
    (wantedFiles wanted files).map Prod.fst ⊆ files.map Prod.fst := by
  intro name member
  obtain ⟨⟨_, document⟩, inWanted, rfl⟩ := List.mem_map.mp member
  obtain ⟨file, inFiles, isWanted⟩ := List.mem_filterMap.mp inWanted
  obtain ⟨_, _, same⟩ := Option.map_eq_some_iff.mp isWanted
  rw [← (Prod.mk.inj same).1]
  exact List.mem_map_of_mem ((List.takeWhile_sublist _).subset inFiles)

theorem withoutFiles_nil (branch : Branch) (directory : List String) :
    withoutFiles branch directory [] = branch := by
  funext names
  simp [withoutFiles]

/-- Without files that are there a branch is another one. -/
theorem withoutFiles_eq_self_iff {view : Branch} {directory gone : List String}
    {files : List (String × String)} (filed : Filed view directory files)
    (inside : gone ⊆ files.map Prod.fst) : withoutFiles view directory gone = view ↔ gone = [] := by
  constructor
  · intro same
    refine List.eq_nil_iff_forall_not_mem.mpr fun name member => ?_
    obtain ⟨file, inFiles, rfl⟩ := List.mem_map.mp (inside member)
    obtain ⟨identity, isFile⟩ := filed.there file inFiles
    have isGone : withoutFiles view directory gone (directory ++ [file.1]) = none :=
      if_pos (List.mem_map_of_mem member)
    rw [same, isFile] at isGone
    cases isGone
  · rintro rfl
    exact withoutFiles_nil view directory

theorem withoutFiles_cons (branch : Branch) (directory : List String) (file : String)
    (files : List String) : withoutFiles branch directory (file :: files)
      = withoutFiles (Function.update branch (directory ++ [file]) none) directory files := by
  funext names
  by_cases isFirst : names = directory ++ [file]
  · simp [withoutFiles, isFirst]
  · simp [withoutFiles, isFirst]

end

section

variable {wanted : Json → Bool} {files : List (String × String)} {entries : List (String × Json)}
  (holds : documentForm.Holds files entries)
include holds

/-- Among files that hold some documents those with the wanted ones are wanted. -/
theorem Form.Holds.wantedFiles :
    wantedFiles wanted files = entries.filter fun entry => wanted entry.2 := by
  have sound : ∀ file ∈ files, (!documentForm.isDamaged file.2) = true := by
    simpa using holds.notDamaged
  have values := congrArg (List.filterMap fun entry : String × Option Json =>
    (entry.2.filter wanted).map fun document => (entry.1, document)) holds
  rw [List.filterMap_map, List.filterMap_map] at values
  rw [FileStore.wantedFiles, List.takeWhile_eq_self_iff.mpr sound]
  refine values.trans ?_
  rw [← List.filterMap_eq_filter]
  refine List.filterMap_congr fun entry _ => ?_
  by_cases isWanted : wanted entry.2 = true <;> simp [Option.guard, isWanted]

/-- Nothing stops the removal from files that hold documents but the limit. -/
theorem Form.Holds.removal (directory : Path) (limit : Storage.Limit) (removed : Nat) :
    removal directory wanted limit removed files
      = .ok ((limit.start removed (entries.filter fun entry => wanted entry.2)).map Prod.snd) := by
  have noneDamaged : (files.find? fun file => documentForm.isDamaged file.2) = none :=
    List.find?_eq_none.mpr fun file member => by simp [holds.notDamaged file member]
  rw [FileStore.removal, noneDamaged, holds.wantedFiles]

end

/-! ## Removing -/

section

variable {moves : Nat → Branch → Branch → Prop} {origin : Disk} {root : Path} {home : Place}
  {heads : Set String} (vacant : Vacant origin root home) {name part : String}
  (own : name ∈ heads) (plain : ∀ other ∈ [name] ++ [part], Plain other)
  (clears : ∀ given view file,
    moves given view (Function.update view ([name] ++ [part] ++ [file]) none))
include vacant own plain clears

/-- The file of a document that is wanted is removed. -/
theorem Filed.deleteFile {view : Branch} {files : List (String × String)}
    (filed : Filed view ([name] ++ [part]) files) {file : String × String} (member : file ∈ files)
    (wanted : Json → Bool) (notDamaged : documentForm.isDamaged file.2 = false) :
    Secures moves origin home heads view
      (FileStore.deleteFile (Path.child (root.trimmed ++ ([name] ++ [part])) file.1) wanted)
      (.ok ((documentForm.in? file.2).filter wanted))
      (Eq (if ((documentForm.in? file.2).filter wanted).isSome then
        Function.update view ([name] ++ [part] ++ [file.1]) none else view)) := by
  have reads := filed.read documentForm moves vacant own plain member
  rw [Form.tells, notDamaged, if_neg Bool.false_ne_true] at reads
  rw [FileStore.deleteFile, readDocumentFile_eq]
  refine .bind_same reads ?_
  cases documentForm.in? file.2 with
  | none => exact .pure none rfl
  | some document =>
      by_cases isWanted : wanted document = true
      · obtain ⟨identity, isFile⟩ := filed.there file member
        have removes := Secures.removeDocument_file vacant filed.leads own
          (filed.plain_names plain member) (show 2 < 3 by decide) isFile (filed.bare file member)
          fun given => clears given view file.1
        rw [Option.filter_some, if_pos isWanted]
        simp only [if_pos isWanted]
        rw [child_file plain]
        exact .bind removes fun _ same => .pure _ same
      · rw [Option.filter_some, if_neg isWanted]
        simp only [if_neg isWanted]
        exact .pure none rfl

/-- The wanted documents of some files are removed one after another, up to the limit or the first
damaged file. -/
theorem Filed.deleteFiles {files : List (String × String)} (wanted : Json → Bool)
    {limit : Storage.Limit} (comparable : limit ≠ .incomparable) :
    ∀ {view : Branch} (removed : Nat), Filed view ([name] ++ [part]) files →
      Secures moves origin home heads view
        (FileStore.deleteFiles (root.trimmed ++ ([name] ++ [part])) wanted limit removed
          (files.map Prod.fst))
        (removal (root.trimmed ++ ([name] ++ [part])) wanted limit removed files)
        (Eq (withoutFiles view ([name] ++ [part])
          ((limit.start removed (wantedFiles wanted files)).map Prod.fst))) := by
  induction files with
  | nil =>
      intro view removed _
      rw [removal_nil, wantedFiles, List.takeWhile_nil, List.filterMap_nil, limit.start_nil,
        List.map_nil, List.map_nil, withoutFiles_nil]
      exact .pure [] rfl
  | cons file rest ih =>
      intro view removed filed
      rw [List.map_cons, FileStore.deleteFiles]
      rcases limit.reached_or comparable (String × Json) removed with
        ⟨isReached, nothing⟩ | ⟨isReached, oneMore⟩
      · rw [removal_reached isReached nothing, nothing, List.map_nil, withoutFiles_nil, isReached]
        exact .ofExcept_bind (.pure [] rfl)
      rw [isReached]
      refine .ofExcept_bind ?_
      cases isDamaged : documentForm.isDamaged file.2 with
      | true =>
          have reads := filed.read documentForm moves vacant own plain
            List.mem_cons_self
          rw [Form.tells, if_pos isDamaged] at reads
          rw [removal_damaged isReached isDamaged, wantedFiles_damaged isDamaged, limit.start_nil,
            List.map_nil, withoutFiles_nil, FileStore.deleteFile, readDocumentFile_eq]
          exact .bind_error (.bind_error reads)
      | false =>
          have deletes := filed.deleteFile vacant own plain clears List.mem_cons_self wanted
            isDamaged
          cases found : (documentForm.in? file.2).filter wanted with
          | none =>
              rw [found] at deletes
              rw [removal_skip isDamaged found, wantedFiles_skip isDamaged found]
              exact .bind_same deletes (ih removed filed.rest)
          | some document =>
              rw [found] at deletes
              rw [removal_cons oneMore isDamaged found, wantedFiles_cons isDamaged found, oneMore,
                List.map_cons, withoutFiles_cons]
              refine .bind deletes fun _ same => ?_
              rw [← same]
              have others := ih (removed + 1) filed.removed
              cases ends : removal (root.trimmed ++ ([name] ++ [part])) wanted limit (removed + 1)
                  rest with
              | error failure =>
                  rw [ends] at others
                  exact .bind_error others
              | ok documents =>
                  rw [ends] at others
                  exact .bind others fun _ held => .pure _ held

end

section

variable {moves : Nat → Branch → Branch → Prop} {store : FileStore} {origin : Disk} {home : Place}
  {heads : Set String} {view : Branch} (vacant : Vacant origin store.root home) {name : String}
  {files : List (String × String)} (own : name ∈ heads) (named : Named name)
include vacant own named

/-- The wanted documents of a collection are removed in the order of their files, up to the limit or
the first damaged file. -/
theorem deleteMatching_shelf (shelf : Shelf view ([name] ++ ["docs"]) files)
    (clears : ∀ given view file,
      moves given view (Function.update view ([name] ++ ["docs"] ++ [file]) none))
    (wanted : Json → Bool) {limit : Storage.Limit} (comparable : limit ≠ .incomparable) :
    Secures moves origin home heads view (store.deleteMatching name wanted limit)
      (removal (store.documentsPath name) wanted limit 0 files)
      (Eq (withoutFiles view ([name] ++ ["docs"])
        ((limit.start 0 (wantedFiles wanted files)).map Prod.fst))) := by
  have plain := named.plain_documents
  simp only [deleteMatching, documentsPath, partPath_eq vacant.resolved named]
  exact .bind_same (shelf.listFiles vacant own plain)
    (shelf.deleteFiles vacant own plain clears wanted comparable 0)

/-- **A removal that comes to a damaged file fails half-way**: the wanted documents of the files
before it are gone, so that everything is as it was exactly when there are none. -/
theorem deleteMatching_damaged {before after : List (String × String)} {file : String × String}
    (shelf : Shelf view ([name] ++ ["docs"]) (before ++ file :: after))
    (clears : ∀ given view file,
      moves given view (Function.update view ([name] ++ ["docs"] ++ [file]) none))
    (wanted : Json → Bool) {limit : Storage.Limit}
    (sound : ∀ other ∈ before, documentForm.isDamaged other.2 = false)
    (isDamaged : documentForm.isDamaged file.2 = true)
    (room : limit.reached (wantedFiles wanted before).length = .ok false) :
    Secures moves origin home heads view (store.deleteMatching name wanted limit)
      (.error (documentForm.failure ((store.documentsPath name).child file.1) file.2))
      fun view' =>
        view' = withoutFiles view ([name] ++ ["docs"]) ((wantedFiles wanted before).map Prod.fst)
          ∧ (view' = view ↔ wantedFiles wanted before = []) := by
  have comparable : limit ≠ .incomparable := by
    rintro rfl
    cases room
  have isFirst : ((before ++ file :: after).find? fun file => documentForm.isDamaged file.2)
      = some file :=
    List.find?_eq_some_iff_append.mpr ⟨isDamaged, before, after, rfl, by simpa using sound⟩
  have ends := deleteMatching_shelf vacant own named shelf clears wanted comparable
  rw [removal, isFirst, wantedFiles_split sound isDamaged, Nat.zero_add, room,
    Storage.Limit.start_eq_self room] at ends
  refine ends.mono fun _ same => ?_
  subst same
  have inside : (wantedFiles wanted before).map Prod.fst ⊆ (before ++ file :: after).map Prod.fst :=
    List.Subset.trans (wantedFiles_subset wanted before) (by simp)
  exact ⟨rfl, (withoutFiles_eq_self_iff shelf.toFiled inside).trans List.map_eq_nil_iff⟩

end

end DocStore.FileStore
