import DocStore.Proofs.Files.Undivided
/-!
# Reading what is seen

Whoever reads finds collections and their files by their names and by listings, and listings are
searched for what is not hidden.  So two disks on which the same is seen below a root answer alike
whatever is read of them: `FileStore.tellsAlike`.  The answers of single calls need not be the same,
for a listing shows what is hidden, too; `TellsAlike` therefore compares what whole actions tell.
-/

set_option autoImplicit false

namespace DocStore

open Disk (Branch Entry Path Place Plain Shows Vacant)
open Files (Named Stored isHidden keyName storedEnding)
open Host (Action Machine)

/-! ## Actions that tell the same -/

/-- An action tells the same on two machines and changes neither. -/
def Host.TellsAlike (first second : Machine) {α : Type} (action : Action α) : Prop :=
  ∃ result, first.eval action = (result, first) ∧ second.eval action = (result, second)

namespace Host.TellsAlike

variable {α β : Type} {first second : Machine} {action : Action α} {next : α → Action β}

theorem pure (value : α) : TellsAlike first second (Pure.pure value) := ⟨.ok value, rfl, rfl⟩

theorem fail (failure : Failure) : TellsAlike first second (Attempt.fail failure : Action α) :=
  ⟨.error failure, rfl, rfl⟩

/-- What is told may differ as long as what follows does not depend on the difference. -/
theorem bind_of_same {value value' : α} (run : first.eval action = (.ok value, first))
    (run' : second.eval action = (.ok value', second)) (same : next value' = next value)
    (goesOn : TellsAlike first second (next value)) : TellsAlike first second (action >>= next) := by
  obtain ⟨result, told, told'⟩ := goesOn
  refine ⟨result, ?_, ?_⟩
  · rw [Machine.eval, Attempt.eval_bind_ok run]
    exact told
  · rw [Machine.eval, Attempt.eval_bind_ok run', same]
    exact told'

theorem bind (alike : TellsAlike first second action)
    (goesOn : ∀ value, TellsAlike first second (next value)) :
    TellsAlike first second (action >>= next) := by
  obtain ⟨result, told, told'⟩ := alike
  cases result with
  | ok value => exact bind_of_same told told' rfl (goesOn value)
  | error failure =>
      exact ⟨.error failure, Attempt.eval_bind_error told, Attempt.eval_bind_error told'⟩

theorem forEach {ι : Type} {list : List ι} {action : ι → Action α}
    (each : ∀ element ∈ list, TellsAlike first second (action element)) :
    TellsAlike first second (Attempt.forEach list action) := by
  induction list with
  | nil => exact .pure []
  | cons head rest ih =>
      exact .bind (each head (by simp)) fun _ =>
        .bind (ih fun element member => each element (List.mem_cons_of_mem _ member)) fun _ => .pure _

/-- A call that two disks answer alike, for which a missing file is no failure. -/
theorem orMissing {call : Disk.Call} {next : Except Disk.Errno call.Result → Action α}
    {answer : call.Answer} {allowed : Disk.Errno → Prop} [DecidablePred allowed] {missing : α}
    {failure : Disk.Errno → Failure} (answers : first.disk.answer call = (answer, first.disk))
    (answers' : second.disk.answer call = (answer, second.disk))
    (succeeds : ∀ result, ∃ value, next (.ok result) = Pure.pure value)
    (fails : ∀ errno, next (.error errno)
      = if allowed errno then Pure.pure missing else Attempt.fail (failure errno)) :
    TellsAlike first second (Host.tryCall call >>= next) := by
  refine .bind ⟨.ok answer, ?_, ?_⟩ fun answer => ?_
  · rw [Machine.eval_tryCall, answers]
  · rw [Machine.eval_tryCall, answers']
  · cases answer with
    | ok result =>
        obtain ⟨value, same⟩ := succeeds result
        rw [same]
        exact .pure value
    | error errno =>
        rw [fails]
        split
        · exact .pure missing
        · exact .fail _

end Host.TellsAlike

open Host (TellsAlike)

namespace FileStore

variable {first second : Machine} {path : Path}

/-- What is read of a file is told by its text. -/
theorem tellsAlike_readJson (alike : TellsAlike first second (Files.readDocument path)) :
    TellsAlike first second (readJson path) := by
  refine .bind alike fun content => ?_
  cases content with
  | none => exact .pure none
  | some content =>
      dsimp only
      split
      · exact .pure _
      · exact .fail _

theorem tellsAlike_readDocumentFile (alike : TellsAlike first second (Files.readDocument path)) :
    TellsAlike first second (readDocumentFile path) := by
  refine .bind (tellsAlike_readJson alike) fun value => ?_
  split
  · exact .pure none
  · exact .pure none
  · split
    · exact .pure _
    · exact .fail _

theorem tellsAlike_readCheckFile (alike : TellsAlike first second (Files.readDocument path)) :
    TellsAlike first second (readCheckFile path) := by
  refine .bind (tellsAlike_readJson alike) fun value => ?_
  split
  · exact .pure none
  · exact .pure none
  · split
    · exact .pure _
    · exact .fail _

end FileStore

/-! ## Listings -/

/-- Of two listings the same is kept, in the same order, if what is kept has the same entries. -/
theorem Disk.Branch.Lists.filter_sort_eq {branch branch' : Branch} {names : List String}
    {listed listed' : List (String × Disk.EntryKind)} (lists : branch.Lists names listed)
    (lists' : branch'.Lists names listed') (kind : Disk.EntryKind) (keep : String → Bool)
    (same : ∀ name, keep name = true → branch' (names ++ [name]) = branch (names ++ [name])) :
    (Sorting.sort Text.before ((listed'.filter fun entry => entry.2 == kind).map Prod.fst)).filter keep
      = (Sorting.sort Text.before
        ((listed.filter fun entry => entry.2 == kind).map Prod.fst)).filter keep := by
  have distinct (names : List String) : ∀ first ∈ names, ∀ second ∈ names,
      Text.before first second = false → Text.before second first = false → first = second :=
    fun _ _ _ _ notBefore notAfter => Text.eq_of_not_before notBefore notAfter
  rw [Sorting.filter_sort Text.ranks_before keep (distinct _),
    Sorting.filter_sort Text.ranks_before keep (distinct _)]
  refine Sorting.sort_eq_of_perm Text.ranks_before ((List.perm_ext_iff_of_nodup
    ((lists'.nodup_ofKind kind).filter keep) ((lists.nodup_ofKind kind).filter keep)).mpr
      fun name => ?_) (distinct _)
  rw [List.mem_filter, List.mem_filter, lists.mem_ofKind, lists'.mem_ofKind]
  exact and_congr_left fun kept => by rw [same name kept]

namespace FileStore

variable {store : FileStore} {origin : Disk} {home : Place}
  (vacant : Vacant origin store.root home) {branch branch' : Branch} (tidy : Tidy branch)
  (alike : SeenAlike branch' branch) {first second : Machine}
  (shows : Shows origin home branch first.disk) (shows' : Shows origin home branch' second.disk)
include vacant tidy alike shows shows'

/-! ## Collections and their files -/

section

variable {name part : String} (named : Named name) (isPart : isPart part)
include named isPart

/-- Of the directory of a collection the same is told. -/
theorem exists_status : ∃ answer,
    first.disk.answer (.status (store.root.trimmed ++ ([name] ++ [part]))) = (answer, first.disk)
      ∧ second.disk.answer (.status (store.root.trimmed ++ ([name] ++ [part])))
        = (answer, second.disk) := by
  have plain : ∀ other ∈ [name] ++ [part], Plain other := fun other member =>
    named.plain_names isPart isPart.stored other (List.mem_append_left _ member)
  have seen := seen_part named isPart
  by_cases there : branch [name] = none
  · have absent := absent_of_missing there [part]
    exact ⟨_, congrArg first.disk.reading
      (shows.status_absent vacant absent plain (show 2 ≤ 3 by decide)),
      congrArg second.disk.reading
        (shows'.status_absent vacant (alike.absent seen absent) plain (show 2 ≤ 3 by decide))⟩
  · obtain ⟨identity, isDirectory⟩ := tidy.part name part named there isPart
    have leads := tidy.leads_collection named there
    exact ⟨_, congrArg first.disk.reading
      (shows.status_directory vacant leads plain (show 1 < 3 by decide) isDirectory),
      congrArg second.disk.reading (shows'.status_directory vacant
        (alike.leads (seen_collection named.seen) leads) plain (show 1 < 3 by decide)
        ((alike _ seen).trans isDirectory))⟩

theorem tellsAlike_isDirectory :
    TellsAlike first second
      (Files.isDirectory (store.root.trimmed ++ ([name] ++ [part]))) := by
  obtain ⟨answer, answers, answers'⟩ :=
    exists_status vacant tidy alike shows shows' named isPart
  exact .orMissing answers answers' (fun _ => ⟨_, rfl⟩) fun _ => rfl

theorem tellsAlike_directoryIdentity :
    TellsAlike first second
      (Files.directoryIdentity (store.root.trimmed ++ ([name] ++ [part]))) := by
  obtain ⟨answer, answers, answers'⟩ :=
    exists_status vacant tidy alike shows shows' named isPart
  exact .orMissing answers answers' (fun _ => ⟨_, rfl⟩) fun _ => rfl

theorem tellsAlike_readDocument {file : String} (stored : Stored file) :
    TellsAlike first second
      (Files.readDocument (store.root.trimmed ++ ([name, part] ++ [file]))) := by
  have plain := named.plain_names isPart stored.plain
  have seen := seen_file named isPart stored.seen
  rcases absent_or_file tidy named isPart stored with absent | ⟨leads, identity, content, isFile⟩
  · exact .orMissing (congrArg first.disk.reading
      (shows.read_absent vacant absent plain (show 3 ≤ 3 by decide)))
      (congrArg second.disk.reading
        (shows'.read_absent vacant (alike.absent seen absent) plain (show 3 ≤ 3 by decide)))
      (fun _ => ⟨_, rfl⟩) fun _ => rfl
  · exact .orMissing (congrArg first.disk.reading
      (shows.read_file vacant leads plain (show 2 < 3 by decide) isFile))
      (congrArg second.disk.reading (shows'.read_file vacant
        (alike.leads (seen_part named isPart) leads) plain (show 2 < 3 by decide)
        ((alike _ seen).trans isFile)))
      (fun _ => ⟨_, rfl⟩) fun _ => rfl

/-- The same files are listed, and they are files that a storage writes. -/
theorem exists_listFiles : ∃ files, (∀ file ∈ files, Stored file)
    ∧ first.eval (Files.listFiles (store.root.trimmed ++ ([name] ++ [part])) storedEnding)
      = (.ok files, first)
    ∧ second.eval (Files.listFiles (store.root.trimmed ++ ([name] ++ [part])) storedEnding)
      = (.ok files, second) := by
  have plain : ∀ other ∈ [name] ++ [part], Plain other := fun other member =>
    named.plain_names isPart isPart.stored other (List.mem_append_left _ member)
  have seen := seen_part named isPart
  by_cases there : branch [name] = none
  · have absent := absent_of_missing there [part]
    exact ⟨[], by simp, Files.eval_listFiles (Files.eval_listEntries_missing
      (shows.list_absent vacant absent plain (show 2 ≤ 3 by decide)) .file) storedEnding,
      Files.eval_listFiles (Files.eval_listEntries_missing (shows'.list_absent vacant
        (alike.absent seen absent) plain (show 2 ≤ 3 by decide)) .file) storedEnding⟩
  · obtain ⟨identity, isDirectory⟩ := tidy.part name part named there isPart
    have leads := tidy.leads_collection named there
    obtain ⟨listed, answers, lists⟩ := shows.list_directory vacant leads plain
      (show 1 < 3 by decide) isDirectory
    obtain ⟨listed', answers', lists'⟩ := shows'.list_directory vacant
      (alike.leads (seen_collection named.seen) leads) plain (show 1 < 3 by decide)
      ((alike _ seen).trans isDirectory)
    have same := lists.filter_sort_eq lists' .file
      (fun file => !isHidden file && (storedEnding = "" || Files.hasEnding storedEnding file))
      fun file kept => alike _ (seen_file named isPart (by simp at kept; exact kept.1))
    refine ⟨_, fun file member => ?_,
      Files.eval_listFiles (Files.eval_listEntries answers .file) storedEnding, ?_⟩
    · obtain ⟨inside, kept⟩ := List.mem_filter.mp member
      obtain ⟨entry, found, _⟩ := (lists.mem_ofKind .file file).mp
        ((Sorting.sort_perm _ _).mem_iff.mp inside)
      have isFile := tidy.file name part file named there isPart (by simp at kept; exact kept.1)
      exact (isFile.resolve_left fun missing => by
        rw [show branch [name, part, file] = _ from found] at missing
        cases missing).1
    · rw [← same]
      exact Files.eval_listFiles (Files.eval_listEntries answers' .file) storedEnding

end

/-! ## Operations -/

/-- The same collections are found. -/
theorem tellsAlike_collections : TellsAlike first second store.collections := by
  obtain ⟨listed, answers, lists⟩ := shows.list_root vacant
  obtain ⟨listed', answers', lists'⟩ := shows'.list_root vacant
  have same := lists.filter_sort_eq lists' .directory (fun name => !isHidden name)
    fun name kept => alike _ (seen_collection (by simpa using kept))
  refine .bind_of_same (Files.eval_listEntries answers .directory)
    (Files.eval_listEntries answers' .directory) (by simp only [same])
    (.bind (.forEach fun name member => ?_) fun _ => .pure _)
  obtain ⟨inside, kept⟩ := List.mem_filter.mp member
  obtain ⟨entry, found, _⟩ := (lists.mem_ofKind .directory name).mp
    ((Sorting.sort_perm _ _).mem_iff.mp inside)
  have named := ((tidy.collection name (by simpa using kept)).resolve_left fun missing => by
    rw [show branch [name] = _ from found] at missing
    cases missing).1
  have path : (store.root.child name).child "docs" = store.root.trimmed ++ ([name] ++ ["docs"]) :=
    Path.child_concat _ named.plain.nonempty "docs"
  rw [path]
  refine .bind (tellsAlike_isDirectory vacant tidy alike shows shows' named (.inl rfl)) fun kept => ?_
  exact .pure _

/-- **Where the same is seen**, whatever is read tells the same. -/
theorem tellsAlike {op : Storage.Op .json} (reads : op.Reads) (fits : op.Fits) :
    TellsAlike first second (store.perform op) := by
  have resolved := vacant.resolved
  cases op with
  | «exists» name =>
      show TellsAlike first second (Files.isDirectory (store.documentsPath name))
      rw [documentsPath, partPath_eq resolved fits "docs"]
      exact tellsAlike_isDirectory vacant tidy alike shows shows' fits (.inl rfl)
  | collections => exact tellsAlike_collections vacant tidy alike shows shows'
  | get name id =>
      have reads := tellsAlike_readDocument vacant tidy alike shows shows' fits (.inl rfl)
        (Files.stored_keyName id)
      rw [← documentPath_eq vacant fits id] at reads
      exact .bind (tellsAlike_readDocumentFile reads) fun _ => .pure _
  | scan name query =>
      obtain ⟨files, stored, run, run'⟩ :=
        exists_listFiles vacant tidy alike shows shows' fits (.inl rfl)
      have identity := tellsAlike_directoryIdentity vacant tidy alike shows shows' fits (.inl rfl)
      rw [← partPath_eq resolved fits] at identity run run'
      refine .bind identity fun before => ?_
      cases before with
      | none => exact .pure []
      | some before =>
          refine .bind_of_same run run' rfl (.bind (.bind (.forEach fun file member => ?_)
            fun _ => .pure _) fun documents => .bind identity fun after => ?_)
          · have reads := tellsAlike_readDocument vacant tidy alike shows shows' fits (.inl rfl)
              (stored file member)
            rw [← filePath_eq resolved fits (.inl rfl)] at reads
            exact tellsAlike_readDocumentFile reads
          · split
            · exact .pure _
            · exact .pure []
  | checks name =>
      obtain ⟨files, stored, run, run'⟩ :=
        exists_listFiles vacant tidy alike shows shows' fits (.inr rfl)
      rw [← partPath_eq resolved fits] at run run'
      refine .bind_of_same run run' rfl (.bind (.forEach fun file member => ?_) fun _ => .pure _)
      have reads := tellsAlike_readDocument vacant tidy alike shows shows' fits (.inr rfl)
        (stored file member)
      rw [← filePath_eq resolved fits (.inr rfl)] at reads
      exact tellsAlike_readCheckFile reads
  | create | drop | put | replace | deleteMatching | deleteById | addCheck | dropCheck | close =>
      exact reads.elim

end FileStore

end DocStore
