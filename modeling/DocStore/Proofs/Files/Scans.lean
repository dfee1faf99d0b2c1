import DocStore.Proofs.Files.Glimpses
import DocStore.Proofs.Files.Requests
/-!
# Scans between the writes of others

A scan looks for the directory of a collection, lists its files, reads each of them and looks for
the directory again.  While others write it does each of these at a moment of its own: `Reading`
says which, and `FileStore.scan_along` that a scan tells what it has read unless the directory is
another one at the end.

Where the collection is in order at every moment, a reading has no identifier twice
(`Reading.nodup_ids`), each of its documents has been there at some moment
(`Reading.mem_documents`), and it has each document that has been there all the time
(`Reading.of_lasting`).  If the documents have been the same all the time, so are those of the
reading (`Reading.documents_eq`).
-/

set_option autoImplicit false

namespace DocStore

open Disk (Path)
open Files (keyName storedEnding)
open Host (Action Along Machine Once)

/-! ## Questions that are asked once -/

namespace Host.Once

variable {α : Type}

/-- What is made of the answer of a call without asking. -/
theorem tryCall_bind {call : Disk.Call} {next : Except Disk.Errno call.Result → Action α}
    (succeeds : ∀ result, ∃ outcome, (next (.ok result)).toProgram = .done outcome)
    (fails : ∀ errno, ∃ outcome, (next (.error errno)).toProgram = .done outcome) :
    Once (Host.tryCall call >>= next).toProgram := by
  refine .bind (.tryCall call) fun answer => ?_
  cases answer with
  | ok result => exact succeeds result
  | error errno => exact fails errno

theorem readDocument (path : Path) : Once (Files.readDocument path).toProgram := by
  refine tryCall_bind (fun content => ⟨_, rfl⟩) fun errno => ?_
  dsimp only
  split <;> exact ⟨_, rfl⟩

theorem listFiles (directory : Path) (ending : String) :
    Once (Files.listFiles directory ending).toProgram := by
  refine .bind (tryCall_bind (fun entries => ⟨_, rfl⟩) fun errno => ?_) fun names => ⟨_, rfl⟩
  dsimp only
  split <;> exact ⟨_, rfl⟩

theorem directoryIdentity (path : Path) : Once (Files.directoryIdentity path).toProgram := by
  refine tryCall_bind (fun status => ⟨_, rfl⟩) fun errno => ?_
  dsimp only
  split <;> exact ⟨_, rfl⟩

theorem readDocumentFile (path : Path) : Once (FileStore.readDocumentFile path).toProgram := by
  refine .bind (.bind (readDocument path) fun content => ?_) fun value => ?_
  · cases content with
    | none => exact ⟨_, rfl⟩
    | some content =>
        dsimp only
        split <;> exact ⟨_, rfl⟩
  · split
    · exact ⟨_, rfl⟩
    · exact ⟨_, rfl⟩
    · split <;> exact ⟨_, rfl⟩

end Host.Once

/-! ## Readings -/

/-- What is read of a collection between two times: its files are listed, each of them is read after
that, and then the directory is looked for. -/
structure Reading (glimpses : Nat → Glimpse) (start finish : Nat) where
  /-- When the files are listed. -/
  listed : Nat
  /-- The files, each with the time at which it is read. -/
  moments : List (String × Nat)
  /-- When the directory is looked for. -/
  last : Nat
  begins : start ≤ listed
  files : moments.map Prod.fst = (glimpses listed).files
  between : ∀ moment ∈ moments, listed ≤ moment.2 ∧ moment.2 ≤ last
  goesOn : listed ≤ last
  ends : last ≤ finish

namespace Reading

variable {glimpses : Nat → Glimpse} {start finish : Nat} (reading : Reading glimpses start finish)

/-- The documents that are read. -/
def documents : List Json :=
  reading.moments.filterMap fun moment => (glimpses moment.2).document? moment.1

theorem within {moment : String × Nat} (member : moment ∈ reading.moments) :
    start ≤ moment.2 ∧ moment.2 ≤ finish := by
  obtain ⟨later, early⟩ := reading.between moment member
  exact ⟨Nat.le_trans reading.begins later, Nat.le_trans early reading.ends⟩

theorem listed_le : reading.listed ≤ finish := Nat.le_trans reading.goesOn reading.ends

theorem exists_moment {file : String} (isFile : file ∈ (glimpses reading.listed).files) :
    ∃ time, (file, time) ∈ reading.moments := by
  rw [← reading.files] at isFile
  obtain ⟨⟨_, time⟩, member, rfl⟩ := List.mem_map.mp isFile
  exact ⟨time, member⟩

variable (orderly : ∀ time, start ≤ time → time ≤ finish → (glimpses time).Orderly)
include orderly

theorem exists_key {moment : String × Nat} (member : moment ∈ reading.moments) :
    ∃ id, moment.1 = keyName id :=
  (orderly reading.listed reading.begins reading.listed_le).named moment.1
    (reading.files ▸ List.mem_map_of_mem member)

/-- Each document has been there at some time under its own identifier. -/
theorem mem_documents {document : Json} (member : document ∈ reading.documents) :
    ∃ id time, start ≤ time ∧ time ≤ finish ∧ FileStore.documentId? document = some id
      ∧ (glimpses time).document? (keyName id) = some document := by
  obtain ⟨moment, isMoment, isDocument⟩ := List.mem_filterMap.mp member
  obtain ⟨later, early⟩ := reading.within isMoment
  obtain ⟨other, isKey⟩ := reading.exists_key orderly isMoment
  rw [isKey] at isDocument
  obtain ⟨id, isId, same⟩ := (orderly moment.2 later early).keyed other document isDocument
  exact ⟨id, moment.2, later, early, isId, same ▸ isDocument⟩

/-- No identifier is read twice, for no file is. -/
theorem nodup_ids : (reading.documents.map FileStore.documentId?).Nodup := by
  have distinct : (reading.moments.map Prod.fst).Nodup :=
    reading.files ▸ (orderly reading.listed reading.begins reading.listed_le).distinct
  rw [List.Nodup, List.pairwise_map] at distinct ⊢
  refine List.pairwise_filterMap.mpr (distinct.imp_of_mem ?_)
  intro moment other member member' differ document isDocument document' isDocument' same
  obtain ⟨later, early⟩ := reading.within member
  obtain ⟨later', early'⟩ := reading.within member'
  obtain ⟨key, isKey⟩ := reading.exists_key orderly member
  obtain ⟨key', isKey'⟩ := reading.exists_key orderly member'
  rw [isKey] at isDocument
  rw [isKey'] at isDocument'
  obtain ⟨id, isId, file⟩ := (orderly moment.2 later early).keyed key document isDocument
  obtain ⟨id', isId', file'⟩ := (orderly other.2 later' early').keyed key' document' isDocument'
  obtain rfl : id = id' := Option.some.inj (isId.symm.trans (same.trans isId'))
  exact differ (isKey.trans (file.symm.trans (file'.trans isKey'.symm)))

/-- What is there all the time is read. -/
theorem of_lasting {id : String} {document : Json}
    (lasting : ∀ time, start ≤ time → time ≤ finish →
      (glimpses time).document? (keyName id) = some document) : document ∈ reading.documents := by
  have there := lasting reading.listed reading.begins reading.listed_le
  obtain ⟨time, member⟩ := reading.exists_moment
    ((orderly reading.listed reading.begins reading.listed_le).listed id document there)
  obtain ⟨later, early⟩ := reading.within member
  exact List.mem_filterMap.mpr ⟨_, member, lasting time later early⟩

/-- If the documents are the same until the directory is looked for again, these are read. -/
theorem documents_eq {documents : List Json}
    (same : ∀ time, start ≤ time → time ≤ reading.last → (glimpses time).documents = documents) :
    reading.documents = documents := by
  have known (time : Nat) (later : start ≤ time) (early : time ≤ reading.last) (id : String) :
      (glimpses time).document? (keyName id)
        = (glimpses reading.listed).document? (keyName id) := by
    refine Option.ext fun document => ?_
    rw [(orderly time later (Nat.le_trans early reading.ends)).document?_eq_some_iff,
      (orderly reading.listed reading.begins reading.listed_le).document?_eq_some_iff,
      same time later early, same reading.listed reading.begins reading.goesOn]
  rw [← same reading.listed reading.begins reading.goesOn, Glimpse.documents, ← reading.files,
    List.filterMap_map]
  refine List.filterMap_congr fun moment member => ?_
  obtain ⟨id, isKey⟩ := reading.exists_key orderly member
  obtain ⟨later, early⟩ := reading.between moment member
  rw [Function.comp_apply, isKey]
  exact known moment.2 (Nat.le_trans reading.begins later) early id

end Reading

/-! ## Scans -/

namespace FileStore

variable {store : FileStore} {name : String} {machines : Nat → Machine} {start finish : Nat}
  {wanted : Json → Bool}

/-- What a scan does after it has looked for the directory. -/
def scanAfter (store : FileStore) (name : String) (wanted : Json → Bool) :
    Option Nat → Action (List Json)
  | none => return []
  | some before => do
      let directory := store.documentsPath name
      let documents ← readDocuments directory (← Files.listFiles directory storedEnding)
      if (← Files.directoryIdentity directory) = some before then return documents.filter wanted
      else return []

theorem scan_eq (store : FileStore) (name : String) (wanted : Json → Bool) :
    store.scan name wanted
      = Files.directoryIdentity (store.documentsPath name) >>= store.scanAfter name wanted := by
  unfold scan
  refine congrArg _ (funext fun before => ?_)
  cases before <;> rfl

variable (clear : ∀ time, start ≤ time → time ≤ finish → DocStore.Clear store name (machines time))
include clear

/-- A scan that has found a directory tells what it has read, if it finds the directory again. -/
theorem scanAfter_along {before : Nat} {result : Except Failure (List Json)}
    (along : Along machines start (store.scanAfter name wanted (some before)).toProgram result
      finish) :
    ∃ reading : Reading (fun time => store.glimpse name (machines time)) start finish,
      result = .ok (if (store.glimpse name (machines reading.last)).shelf = some before then
        reading.documents.filter wanted else []) := by
  obtain ⟨listed, middle, begins, early, within, along⟩ := along.once_bind (.listFiles _ _)
    fun time later early => (clear time later early).files
  have after := Nat.le_trans begins early
  have inParts (names : List String) (next : List Json → Action (List Json)) :
      (readDocuments (store.documentsPath name) names >>= next)
        = Attempt.forEach names
            (fun name' => readDocumentFile ((store.documentsPath name).child name'))
          >>= fun found => next (found.filterMap id) := by
    rw [readDocuments, bind_assoc]
    simp only [pure_bind]
  rw [inParts] at along
  obtain ⟨moments, middle', isFiles, later, early', between, along⟩ := along.forEach_bind
    (fun _ => .readDocumentFile _) fun file isFile time later early => by
      obtain ⟨id, rfl⟩ := (clear listed begins (Nat.le_trans ‹_› within)).orderly.named file isFile
      exact (clear time (Nat.le_trans after later) early).document id
  obtain ⟨last, middle'', later', early'', within', along⟩ := along.once_bind (.directoryIdentity _)
    fun time later' early =>
      (clear time (Nat.le_trans after (Nat.le_trans later later')) early).shelf
  refine ⟨⟨listed, moments, last, begins, isFiles, fun moment member => ?_,
    Nat.le_trans early (Nat.le_trans later later'), Nat.le_trans early'' within'⟩, ?_⟩
  · obtain ⟨first, second⟩ := between moment member
    exact ⟨Nat.le_trans early first, Nat.le_trans second later'⟩
  · have isDocuments : (moments.map fun moment =>
        (store.glimpse name (machines moment.2)).document? moment.1).filterMap id
          = moments.filterMap fun moment =>
            (store.glimpse name (machines moment.2)).document? moment.1 := by
      rw [List.filterMap_map]
      rfl
    rw [isDocuments] at along
    by_cases same : (store.glimpse name (machines last)).shelf = some before
    · rw [if_pos same] at along ⊢
      cases (along : Along machines middle'' (.done (.ok _)) result finish)
      rfl
    · rw [if_neg same] at along ⊢
      cases (along : Along machines middle'' (.done (.ok _)) result finish)
      rfl

/-- **A scan between the writes of others** finds no directory, or it tells what it has read since
it found one, if it finds this one again. -/
theorem scan_along {result : Except Failure (List Json)}
    (along : Along machines start (store.scan name wanted).toProgram result finish) :
    ∃ first, start ≤ first ∧ first ≤ finish
      ∧ ((store.glimpse name (machines first)).shelf = none ∧ result = .ok []
        ∨ ∃ before, (store.glimpse name (machines first)).shelf = some before
          ∧ ∃ reading : Reading (fun time => store.glimpse name (machines time)) first finish,
            result = .ok (if (store.glimpse name (machines reading.last)).shelf = some before then
              reading.documents.filter wanted else [])) := by
  rw [scan_eq] at along
  obtain ⟨first, middle, later, early, within, along⟩ := along.once_bind (.directoryIdentity _)
    fun time later early => (clear time later early).shelf
  refine ⟨first, later, Nat.le_trans early within, ?_⟩
  cases found : (store.glimpse name (machines first)).shelf with
  | none =>
      rw [found] at along
      cases (along : Along machines middle (.done (.ok [])) result finish)
      exact .inl ⟨rfl, rfl⟩
  | some before =>
      rw [found] at along
      refine .inr ⟨before, rfl, scanAfter_along (fun time later' => clear time
        (Nat.le_trans later later')) (along.sooner early)⟩

omit clear

/-- A scan that runs alone tells the documents that are there. -/
theorem scan_alone {machine : Machine} (clear : DocStore.Clear store name machine) :
    (machine.attempt (store.scan name wanted)).1
      = .ok ((store.glimpse name machine).documents.filter wanted) := by
  obtain ⟨finish, along⟩ := Along.alone (store.looks_scan name wanted) machine 0
  obtain ⟨first, _, _, ⟨noShelf, isResult⟩ | ⟨before, isShelf, reading, isResult⟩⟩ :=
    scan_along (fun _ _ _ => clear) along
  · have nothing : (store.glimpse name machine).files = [] :=
      List.eq_nil_iff_forall_not_mem.mpr fun file isFile =>
        clear.orderly.shelved file isFile noShelf
    rw [Glimpse.documents, nothing]
    exact isResult
  · rw [if_pos isShelf, reading.documents_eq (fun _ _ _ => clear.orderly) fun _ _ _ => rfl]
      at isResult
    exact isResult

/-- A document is told alone as it is there, if it has the identifier. -/
theorem get_alone {machine : Machine} (clear : DocStore.Clear store name machine) (id : String) :
    (machine.attempt (store.perform (.get name id))).1
      = .ok (((store.glimpse name machine).document? (keyName id)).filter fun document =>
        documentId? document == some id) := by
  have told := clear.document id
  rw [Machine.attempt_eq_eval] at told ⊢
  rw [perform, getFrom, Machine.eval, Attempt.eval_bind, told]
  rfl

end FileStore

end DocStore
