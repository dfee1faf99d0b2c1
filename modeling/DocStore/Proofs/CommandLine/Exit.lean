import DocStore.Proofs.Caller.Normal
import DocStore.Proofs.CommandLine.Idle
import DocStore.Proofs.Database.Housed
import DocStore.Proofs.Database.Refusals
/-!
# Exit codes

Over a healthy storage the exit code of a command says what the command has done
(`run_exits`).  Unless it is 0, nothing has changed.  It is not 0 if something was to be destroyed
that has not been confirmed, and it is 2 exactly when what the command is about is not there
(`Setting.Misses`).

A command is idle before and after it uses the database, so what it leaves is what its operation
leaves (`Idle.leaves_bind`, `leaves_bind_idle`).  Only a command that has found nothing chooses the
code 2, since every failure of an operation has the code 1.

All that needs room for the paths below the root.  An insertion creates the collection first, and
nothing takes that back where the path of the document turns out to be too long
(`failed_insert_leaves_collection`).
-/

set_option autoImplicit false

namespace DocStore.CommandLine

open Caller (bind_eq_ok)
open Database (Session checkedName cursorOf)
open Disk (Branch Houses Path)
open FileStore (Healthy Stores documentId? hasCollection)
open Host (Action Leaves Machine)

/-! ## The name of a collection -/

theorem nameFault?_of_checkOperands {verb : Verb} {operands : List String}
    (needs : verb.operandNames ≠ []) (accepted : checkOperands verb operands = .ok ()) :
    Collection.nameFault? (operands.getD 0 "") = none := by
  obtain ⟨name, names, isNames⟩ := List.exists_cons_of_ne_nil needs
  unfold checkOperands at accepted
  rw [isNames] at accepted
  cases operands with
  | nil => cases accepted
  | cons collection others =>
      split at accepted
      · cases accepted
      · dsimp only at accepted
        split at accepted
        · cases accepted
        · assumption

theorem nameFault?_of_readCommand {verb : Verb} {operands unknown : List String} {command : Command}
    (isCommand : readCommand verb operands unknown = .ok command)
    (needs : command.verb.operandNames ≠ []) : Collection.nameFault? command.collection = none := by
  obtain ⟨found, _, isCommand⟩ := bind_eq_ok isCommand
  dsimp only at isCommand
  split at isCommand
  · cases isCommand
  · obtain ⟨_, accepted, isCommand⟩ := bind_eq_ok isCommand
    cases isCommand
    exact nameFault?_of_checkOperands needs accepted

theorem nameFault?_of_commandIn {group : Option String} {operands unknown : List String}
    {command : Command} (isCommand : commandIn group operands unknown = .ok command)
    (needs : command.verb.operandNames ≠ []) : Collection.nameFault? command.collection = none := by
  unfold commandIn at isCommand
  split at isCommand
  · exact nameFault?_of_readCommand isCommand needs
  · cases isCommand

/-- **A command that is about a collection** is given a name that is accepted. -/
theorem nameFault?_of_resolve {arguments : List String} {common : Common} {command : Command}
    (isCommand : resolve arguments = .ok (common, command))
    (needs : command.verb.operandNames ≠ []) : Collection.nameFault? command.collection = none := by
  obtain ⟨found, _, isCommand⟩ := bind_eq_ok isCommand
  obtain ⟨command', isFound, isCommand⟩ := bind_eq_ok isCommand
  cases isCommand
  unfold findCommand at isFound
  split at isFound
  · obtain ⟨inGroup, _, isFound⟩ := bind_eq_ok isFound
    exact nameFault?_of_commandIn isFound needs
  · exact nameFault?_of_commandIn isFound needs

/-! ## The query of a command -/

/-- A query that is JSON is its own normal form. -/
theorem eq_of_checkedQuery_ofJson {value query : Json}
    (isQuery : Database.checkedQuery (Caller.ofJson value) = .ok query) : query = value := by
  rw [Database.checkedQuery] at isQuery
  cases isForm : Caller.normalQuery (Caller.ofJson value) with
  | error misfit =>
      rw [isForm] at isQuery
      cases isQuery
  | ok form =>
      rw [isForm] at isQuery
      cases isQuery
      rw [Caller.normalQuery, Caller.normalObject] at isForm
      split at isForm
      · exact Caller.eq_of_normal_ofJson isForm
      · cases isForm

theorem cursorOf_ofJson {collection : Caller.Value} {name : String}
    (isName : checkedName collection = .ok name) {query : Json}
    (isQuery : Database.checkedQuery (Caller.ofJson query) = .ok query) :
    cursorOf collection (Caller.ofJson query) = .ok ⟨name, query⟩ := by
  rw [cursorOf, isName]
  have isCursor : Database.Cursor.find name (Caller.ofJson query) = .ok ⟨name, query⟩ := by
    unfold Database.Cursor.find
    split
    next absent => exact absurd absent (Caller.ofJson_ne_absent query)
    next =>
      dsimp only
      rw [isQuery]
      rfl
  exact isCursor

namespace Setting

variable (setting : Setting) {machine : Machine}

theorem isQuery_of_query? {found : Option Json}
    (isFound : (machine.eval setting.query?).1 = .ok found) {query : Json}
    (isQuery : found = some query) :
    Database.checkedQuery (Caller.ofJson query) = .ok query := by
  rw [query?, Machine.eval, Attempt.eval_bind] at isFound
  cases read : (machine.eval
      (readSource setting.environment setting.command.source false)).1 with
  | error failure =>
      rw [read] at isFound
      cases isFound
  | ok value? =>
      rw [read] at isFound
      cases value? with
      | none =>
          cases isFound
          cases isQuery
      | some value =>
          have mapped (after : Machine) : (after.eval
              (some <$> Attempt.ofExcept (Database.checkedQuery (Caller.ofJson value)))).1
                = (Database.checkedQuery (Caller.ofJson value)).map some := by
            rw [Machine.eval, Attempt.eval_map]
            rfl
          have isFound' := (mapped _).symm.trans isFound
          cases checked : Database.checkedQuery (Caller.ofJson value) with
          | error failure =>
              rw [checked] at isFound'
              cases isFound'
          | ok form =>
              rw [checked] at isFound'
              cases isFound'
              cases isQuery
              obtain rfl := eq_of_checkedQuery_ofJson checked
              exact checked

/-- The query of a command is a JSON value that is its own normal form. -/
theorem exists_query {given : Caller.Value} (isGiven : (machine.eval setting.query).1 = .ok given) :
    ∃ query, given = Caller.ofJson query
      ∧ Database.checkedQuery (Caller.ofJson query) = .ok query := by
  rw [query, Machine.eval, Attempt.eval_bind] at isGiven
  cases found : (machine.eval setting.query?).1 with
  | error failure =>
      rw [found] at isGiven
      cases isGiven
  | ok query? =>
      rw [found] at isGiven
      cases isGiven
      refine ⟨_, rfl, ?_⟩
      cases query? with
      | none => rfl
      | some query => exact setting.isQuery_of_query? found rfl

end Setting

/-! ## Machines on which a command runs -/

/-- A machine whose disk has a root with a branch below it, and whose generator gives identifiers. -/
structure Ready (root : Path) (view : Branch) (machine : Machine) : Prop where
  houses : Houses root view machine.disk
  usable : ∀ call, ∃ id, Identifier.check (machine.generator call) = .ok id

theorem Ready.rested {root : Path} {view : Branch} {machine after : Machine}
    (ready : Ready root view machine) (rested : Rested machine after) : Ready root view after where
  houses := by
    rw [rested.disk]
    exact ready.houses
  usable := by
    rw [rested.generator]
    exact ready.usable

section

variable {α β : Type} {root : Path} {view : Branch} {kind : Failure → Prop}
  {holds : Except Failure β → Branch → Prop} {machine : Machine}

/-- What is idle at first leaves what follows it to be told. -/
theorem Idle.leaves_bind {first : Action α} {next : α → Action β} (idle : Idle kind first)
    (ready : Ready root view machine) (unlocked : Unlocked (locksOf view))
    (goesOn : ∀ value after, (machine.eval first) = (.ok value, after) → Ready root view after →
      Leaves root (next value) after holds)
    (fails : ∀ failure, (machine.eval first).1 = .error failure → kind failure →
      holds (.error failure) view) : Leaves root (first >>= next) machine holds := by
  obtain ⟨rested, only⟩ := idle machine
  have ready' := ready.rested rested
  cases result : (machine.eval first).1 with
  | ok value =>
      have step : machine.eval first = (.ok value, (machine.eval first).2) := Prod.ext result rfl
      rw [Leaves, Machine.eval, Attempt.eval_bind_ok step]
      exact goesOn value _ step ready'
  | error failure =>
      have step : machine.eval first = (.error failure, (machine.eval first).2) :=
        Prod.ext result rfl
      rw [result] at only
      rw [Leaves, Machine.eval, Attempt.eval_bind_error step]
      exact ⟨view, ready'.houses, unlocked, fails failure result only.of_error⟩

/-- What is idle at last changes nothing more. -/
theorem leaves_bind_idle {first : Action α} {next : α → Action β}
    {ends : Except Failure α → Branch → Prop} (leaves : Leaves root first machine ends)
    (idle : ∀ value, Idle (fun _ => True) (next value))
    (goesOn : ∀ value view' (after : Machine), ends (.ok value) view' →
      holds (after.eval (next value)).1 view')
    (fails : ∀ failure view', ends (.error failure) view' → holds (.error failure) view') :
    Leaves root (first >>= next) machine holds := by
  obtain ⟨view', houses, unlocked, held⟩ := leaves
  cases result : (machine.eval first).1 with
  | ok value =>
      have step : machine.eval first = (.ok value, (machine.eval first).2) := Prod.ext result rfl
      rw [result] at held
      rw [Leaves, Machine.eval, Attempt.eval_bind_ok step]
      refine ⟨view', ?_, unlocked, goesOn value view' _ held⟩
      rw [((idle value) (machine.eval first).2).1.disk]
      exact houses
  | error failure =>
      have step : machine.eval first = (.error failure, (machine.eval first).2) :=
        Prod.ext result rfl
      rw [result] at held
      rw [Leaves, Machine.eval, Attempt.eval_bind_error step]
      exact ⟨view', houses, unlocked, fails failure view' held⟩

end

/-! ## Commands -/

namespace Setting

/-- The root of the storage. -/
def root (setting : Setting) : Path := resolveRoot setting.environment setting.common.root

/-- The storage. -/
def store (setting : Setting) : FileStore :=
  .ofOptions setting.root .absent .absent .absent setting.logger

theorem backend_eq (setting : Setting) : setting.session.backend = .files setting.store := rfl

/-- Whether a command destroys something, so that it asks. -/
def destroys (setting : Setting) : Bool :=
  setting.command.verb = .drop || setting.command.verb = .remove
    || setting.command.verb = .removeById

/-- Whether a command is confirmed on a machine. -/
def isConfirmed (setting : Setting) (machine : Machine) : Prop :=
  Confirmed setting.environment (setting.command.has Verb.forceOption) machine

/-- **What a command is about is not there**: the collection to be dropped, the document of the
identifier, or one that contains the query. -/
def Misses (setting : Setting) (machine : Machine) (view : Branch) : Prop :=
  match setting.command.verb with
  | .drop => setting.isConfirmed machine ∧ hasCollection view setting.collection = false
  | .get => setting.command.id ∉ FileStore.idsOf view setting.collection
  | .removeById =>
      setting.isConfirmed machine ∧ setting.command.id ∉ FileStore.idsOf view setting.collection
  | .findOne =>
      ∃ query, (machine.eval setting.query).1 = .ok (Caller.ofJson query)
        ∧ ∀ document, Stores view setting.collection document →
          Json.contains document query = false
  | _ => False

/-- Where a document is to be removed, the digest tells its identifier from those that are stored. -/
def Apart (setting : Setting) (view : Branch) : Prop :=
  setting.command.verb = .removeById →
    Files.Apart (Insert.insert setting.command.id (FileStore.idsOf view setting.collection))

/-- What a command tells of what it leaves. -/
structure Tells (setting : Setting) (machine : Machine) (view : Branch)
    (result : Except Failure Unit) (view' : Branch) : Prop where
  spares : ∀ failure, result = .error failure → Alike view view'
  misses : setting.Apart view → (exitCode result = 2 ↔ setting.Misses machine view)

variable {setting : Setting} {view : Branch} (healthy : Healthy view) {machine : Machine}
  (ready : Ready setting.root view machine) (unlocked : Unlocked (locksOf view))

/-- What fails has changed nothing, and does not say that something is not there. -/
def Plain {α : Type} (view : Branch) (result : Except Failure α) (view' : Branch) : Prop :=
  ∀ failure, result = .error failure → Alike view view' ∧ failure.exitCode ≠ 2

theorem plain_ok {α : Type} {view' : Branch} {value : α} : Plain view (.ok value) view' :=
  fun _ fails => nomatch fails

theorem plain_of_other {α : Type} {failure : Failure} (other : failure.exitCode ≠ 2) :
    Plain view (.error failure : Except Failure α) view := by
  rintro failure' ⟨⟩
  exact ⟨.refl view, other⟩

theorem plain_of_ordinary {α : Type} {failure : Failure} (ordinary : Ordinary failure) :
    Plain view (.error failure : Except Failure α) view :=
  plain_of_other (by rw [ordinary]; decide)

theorem Tells.of_plain {result : Except Failure Unit} {view' : Branch}
    (plain : Plain view result view') (hits : ¬ setting.Misses machine view) :
    setting.Tells machine view result view' where
  spares failure fails := (plain failure fails).1
  misses _ := by
    refine iff_of_false (fun isTwo => ?_) hits
    cases result with
    | ok _ => cases isTwo
    | error failure => exact (plain failure rfl).2 isTwo

/-- What is only printed at last has been found. -/
theorem Tells.found {view' : Branch} {action : Action Unit} (prints : Idle (fun _ => False) action)
    (after : Machine) (hits : setting.Apart view → ¬ setting.Misses machine view) :
    setting.Tells machine view (after.eval action).1 view' := by
  rw [prints.eval_unit after]
  exact ⟨fun _ fails => (nomatch fails),
    fun apart => iff_of_false (fun isTwo => nomatch isTwo) (hits apart)⟩

theorem Tells.missed {view' : Branch} (message : String) (alike : Alike view view')
    (misses : setting.Apart view → setting.Misses machine view) :
    setting.Tells machine view (.error (.command message notFoundCode none)) view' where
  spares _ _ := alike
  misses apart := iff_of_true rfl (misses apart)

include healthy ready unlocked

/-- **An operation that fails** does not choose an exit code. -/
theorem perform_plain (operation : Database.Operation) :
    Leaves setting.root (setting.perform operation) machine (Plain view) := by
  obtain ⟨view', houses, unlocked', spares⟩ := Session.perform_spares setting.backend_eq
    healthy ready.houses unlocked ready.usable operation
  refine ⟨view', houses, unlocked', fun failure fails => ⟨spares failure fails, ?_⟩⟩
  have refusal :=
    (Session.perform_fails setting.backend_eq operation).of_eval (fun _ _ => trivial) fails
  rw [refusal.exitCode]
  decide

/-- An operation whose result is only printed. -/
theorem perform_prints {operation : Database.Operation}
    {next : operation.Result → Action Unit} (prints : ∀ result, Idle (fun _ => False) (next result)) :
    Leaves setting.root (setting.perform operation >>= next) machine (Plain view) := by
  refine leaves_bind_idle (perform_plain healthy ready unlocked operation)
    (fun result => (prints result).any) (fun result view' after _ => ?_) fun failure view' plain => ?_
  · rw [(prints result).eval_unit after]
    exact plain_ok
  · intro failure' same
    cases same
    exact plain failure rfl

/-- An operation on what has been read before. -/
theorem reads_and_prints {α : Type} {first : Action α} (idle : Idle Ordinary first)
    {operation : α → Database.Operation} {next : (value : α) → (operation value).Result → Action Unit}
    (prints : ∀ value result, Idle (fun _ => False) (next value result)) :
    Leaves setting.root (first >>= fun value => setting.perform (operation value) >>= next value)
      machine (Plain view) :=
  idle.leaves_bind ready unlocked
    (fun value _ _ ready' => perform_prints healthy ready' unlocked (prints value))
    fun _ _ => plain_of_ordinary

/-- **A command that misses nothing** fails with nothing changed. -/
theorem body_plain (searches : setting.command.verb ∉ [Verb.drop, .get, .findOne, .removeById]) :
    Leaves setting.root setting.body machine (Plain view) := by
  unfold body
  split
  next =>
    refine perform_prints healthy ready unlocked fun names => ?_
    split
    · exact idle_printLine _ _
    · exact idle_printLines names
  next =>
    refine perform_prints healthy ready unlocked fun created => ?_
    split <;> exact idle_printStatus _ _
  next isVerb => simp [isVerb] at searches
  next =>
    exact reads_and_prints healthy ready unlocked setting.idle_document fun _ id =>
      idle_printLine _ _
  next =>
    exact reads_and_prints healthy ready unlocked setting.idle_document fun _ id =>
      idle_printLine _ _
  next isVerb => simp [isVerb] at searches
  next =>
    exact reads_and_prints healthy ready unlocked setting.idle_query fun _ documents =>
      idle_printLine _ _
  next isVerb => simp [isVerb] at searches
  next =>
    exact reads_and_prints healthy ready unlocked setting.idle_query fun _ count =>
      idle_printLine _ _
  next =>
    refine setting.idle_query?.leaves_bind ready unlocked (fun query after _ ready' => ?_)
      fun _ _ => plain_of_ordinary
    cases query with
    | none => exact ⟨view, ready'.houses, unlocked, plain_of_ordinary rfl⟩
    | some query =>
        refine (idle_confirm _ _ _).leaves_bind ready' unlocked (fun _ later _ ready'' => ?_)
          fun _ _ => plain_of_other
        split
        · exact perform_prints healthy ready'' unlocked fun _ => idle_printStatus _ _
        · exact perform_prints healthy ready'' unlocked fun _ => idle_printStatus _ _
  next isVerb => simp [isVerb] at searches
  next =>
    refine reads_and_prints healthy ready unlocked setting.idle_spec fun _ added => ?_
    split <;> exact idle_printStatus _ _
  next =>
    refine reads_and_prints healthy ready unlocked setting.idle_spec fun _ removed => ?_
    split <;> exact idle_printStatus _ _
  next =>
    refine perform_prints healthy ready unlocked fun constraints => ?_
    split
    · exact idle_printLine _ _
    · exact idle_printLines _

/-! ## Commands that look for something -/

omit healthy in
/-- The operation of a command that has to be confirmed first. -/
theorem confirmed_leaves {question : String} {next : Action Unit}
    (goesOn : setting.isConfirmed machine → ∀ after, Ready setting.root view after →
      Leaves setting.root next after (setting.Tells machine view))
    (misses : setting.Misses machine view → setting.isConfirmed machine) :
    Leaves setting.root (setting.confirmed question >>= fun _ => next) machine
      (setting.Tells machine view) := by
  refine (idle_confirm _ _ _).leaves_bind ready unlocked (fun _ after asked ready' => ?_)
    fun failure fails other => ?_
  · exact goesOn ((confirm_ok_iff _ _ question machine).mp (congrArg Prod.fst asked)) after ready'
  · refine .of_plain (plain_of_other other) fun missing => ?_
    have passes := (confirm_ok_iff _ _ question machine).mpr (misses missing)
    rw [passes] at fails
    cases fails

omit healthy in
/-- An operation that only reads leaves everything as it is. -/
theorem reads_leaves {operation : Database.Operation} (reads : operation.changed? = none) :
    Leaves setting.root (setting.perform operation) machine fun result view' =>
      result = (machine.eval (setting.perform operation)).1 ∧ view' = view := by
  have same : (machine.eval (setting.perform operation)).2 = machine :=
    setting.session.attempt_reads machine reads
  exact ⟨view, same.symm ▸ ready.houses, unlocked, rfl, rfl⟩

omit healthy ready unlocked in
/-- A search prints what it has found, and misses what it is about exactly when that is nothing. -/
theorem search_tells {search : Action (Option Json)} {found : Option Json}
    {next : Option Json → Action Unit} {message : String}
    (reads : Leaves setting.root search machine fun result view' =>
      result = (machine.eval search).1 ∧ view' = view)
    (finds : (machine.eval search).1 = .ok found)
    (prints : ∀ document, Idle (fun _ => False) (next (some document)))
    (saysSo : next none = notFound message) (missing : found = none ↔ setting.Misses machine view) :
    Leaves setting.root (search >>= next) machine (setting.Tells machine view) := by
  refine leaves_bind_idle reads (fun found => ?_) (fun found' view' later ⟨same, unchanged⟩ => ?_)
    fun failure view' ⟨same, _⟩ => nomatch same.trans finds
  · cases found with
    | none =>
        rw [saysSo]
        exact .fail trivial
    | some document => exact (prints document).any
  · obtain rfl : found' = found := Except.ok.inj (same.trans finds)
    subst unchanged
    cases found' with
    | none =>
        rw [saysSo]
        exact .missed _ (.refl _) fun _ => missing.mp rfl
    | some document =>
        exact .found (prints document) later fun _ isMissing => nomatch missing.mpr isMissing

variable (isName : checkedName setting.collectionValue = .ok setting.collection)
include isName

theorem drop_tells (isVerb : setting.command.verb = .drop) :
    Leaves setting.root setting.dropCollection machine (setting.Tells machine view) := by
  have missing_iff : setting.Misses machine view
      ↔ setting.isConfirmed machine ∧ hasCollection view setting.collection = false := by
    rw [Misses, isVerb]
  refine confirmed_leaves ready unlocked (fun confirmed after ready' => ?_)
    fun missing => (missing_iff.mp missing).1
  refine leaves_bind_idle (Session.drops_collection setting.backend_eq healthy ready'.houses unlocked
    isName) (fun dropped => ?_) (fun dropped view' later ⟨isDropped, spares⟩ => ?_)
    fun failure view' ⟨isDropped, _⟩ => nomatch isDropped
  · split
    · exact idle_printStatus _ _
    · exact .fail trivial
  · cases isDropped
    cases exist : hasCollection view setting.collection with
    | true =>
        refine .found (idle_printStatus _ _) later fun _ missing => ?_
        rw [missing_iff, exist] at missing
        exact nomatch missing.2
    | false => exact .missed _ (spares exist) fun _ => missing_iff.mpr ⟨confirmed, exist⟩

theorem removeById_tells (isVerb : setting.command.verb = .removeById) :
    Leaves setting.root setting.removeById machine (setting.Tells machine view) := by
  have missing_iff : setting.Misses machine view ↔ setting.isConfirmed machine
      ∧ setting.command.id ∉ FileStore.idsOf view setting.collection := by
    rw [Misses, isVerb]
  refine confirmed_leaves ready unlocked (fun confirmed after ready' => ?_)
    fun missing => (missing_iff.mp missing).1
  refine leaves_bind_idle (Session.removes_document setting.backend_eq healthy ready'.houses unlocked
    isName rfl) (fun count => ?_) (fun count view' later ⟨count', same, spares, isZero⟩ => ?_)
    fun failure view' ⟨_, isCount, _⟩ => nomatch isCount
  · split
    · exact .fail trivial
    · exact idle_printStatus _ _
  · cases same
    by_cases none : count = 0
    · rw [if_pos none]
      exact .missed _ (spares none) fun apart =>
        missing_iff.mpr ⟨confirmed, (isZero (apart isVerb)).mp none⟩
    · rw [if_neg none]
      refine .found (idle_printStatus _ _) later fun apart missing => ?_
      exact none ((isZero (apart isVerb)).mpr (missing_iff.mp missing).2)

theorem get_tells (isVerb : setting.command.verb = .get) :
    Leaves setting.root setting.get machine (setting.Tells machine view) := by
  have missing_iff : setting.Misses machine view
      ↔ setting.command.id ∉ FileStore.idsOf view setting.collection := by
    rw [Misses, isVerb]
  have isId : Identifier.ofValue setting.idValue = .ok setting.command.id := rfl
  obtain ⟨found, finds, missing⟩ :=
    Session.finds_document setting.backend_eq healthy ready.houses isName isId
  exact search_tells (reads_leaves ready unlocked rfl) finds (fun _ => idle_printLine _ _) rfl
    (missing.trans missing_iff.symm)

theorem findOne_tells (isVerb : setting.command.verb = .findOne) :
    Leaves setting.root setting.findOne machine (setting.Tells machine view) := by
  refine setting.idle_query.leaves_bind ready unlocked (fun given after asked _ => ?_)
    fun failure fails ordinary => .of_plain (plain_of_ordinary ordinary) fun missing => ?_
  · obtain ⟨query, rfl, isQuery⟩ := setting.exists_query (congrArg Prod.fst asked)
    obtain rfl : machine = after :=
      (setting.still_query machine).symm.trans (congrArg Prod.snd asked)
    have missing_iff : setting.Misses machine view
        ↔ ∀ document, Stores view setting.collection document →
          Json.contains document query = false := by
      rw [Misses, isVerb]
      refine ⟨fun ⟨other, isOther, misses⟩ => ?_,
        fun misses => ⟨query, congrArg Prod.fst asked, misses⟩⟩
      have same : Caller.ofJson other = Caller.ofJson query :=
        Except.ok.inj (isOther.symm.trans (congrArg Prod.fst asked))
      rw [← same] at isQuery
      rw [eq_of_checkedQuery_ofJson isQuery]
      exact misses
    obtain ⟨found, finds, missing⟩ := Session.finds_first setting.backend_eq healthy ready.houses
      (cursorOf_ofJson isName isQuery)
    exact search_tells (reads_leaves ready unlocked rfl) finds (fun _ => idle_printLine _ _) rfl
      (missing.trans missing_iff.symm)
  · rw [Misses, isVerb] at missing
    obtain ⟨query, isQuery, _⟩ := missing
    exact nomatch isQuery.symm.trans fails

omit isName in
/-- **What a command leaves** over a healthy storage. -/
theorem body_tells (accepted : setting.command.verb.operandNames ≠ [] →
      checkedName setting.collectionValue = .ok setting.collection) :
    Leaves setting.root setting.body machine (setting.Tells machine view) := by
  by_cases searches : setting.command.verb ∈ [Verb.drop, .get, .findOne, .removeById]
  · have isName := accepted (by
      intro nothing
      cases isVerb : setting.command.verb <;> rw [isVerb] at searches nothing <;>
        simp [Verb.operandNames] at searches nothing)
    unfold body
    simp only [List.mem_cons, List.not_mem_nil, or_false] at searches
    rcases searches with isVerb | isVerb | isVerb | isVerb <;> rw [isVerb]
    · exact drop_tells healthy ready unlocked isName isVerb
    · exact get_tells healthy ready unlocked isName isVerb
    · exact findOne_tells healthy ready unlocked isName isVerb
    · exact removeById_tells healthy ready unlocked isName isVerb
  · obtain ⟨view', houses, unlocked', plain⟩ := body_plain healthy ready unlocked searches
    refine ⟨view', houses, unlocked', .of_plain plain fun misses => searches ?_⟩
    unfold Misses at misses
    split at misses <;> simp_all

omit healthy ready unlocked isName in
/-- **A command that destroys something** fails unless it is confirmed. -/
theorem body_refused (destroys : setting.destroys = true)
    (refused : ¬ setting.isConfirmed machine)
    (answered : setting.environment.isTerminal = true → ∃ line, lineOf? machine = some line) :
    ∃ failure, (machine.eval setting.body).1 = .error failure ∧ Ordinary failure := by
  have stops {question : String} {next : Unit → Action Unit} :
      ∃ failure, (machine.eval (setting.confirmed question >>= next)).1 = .error failure
        ∧ Ordinary failure := by
    obtain ⟨failure, asked, ordinary⟩ := confirm_refused _ _ question refused answered
    have step : machine.eval (setting.confirmed question)
        = (.error failure, (machine.eval (setting.confirmed question)).2) := Prod.ext asked rfl
    exact ⟨failure, congrArg Prod.fst (Attempt.eval_bind_error step), ordinary⟩
  have verbs : setting.command.verb = .drop ∨ setting.command.verb = .remove
      ∨ setting.command.verb = .removeById := by
    simpa [Setting.destroys, or_assoc] using destroys
  unfold body
  rcases verbs with isVerb | isVerb | isVerb <;> rw [isVerb]
  · exact stops
  · show ∃ failure, (machine.eval setting.remove).1 = .error failure ∧ Ordinary failure
    have only := (setting.idle_query? machine).2
    cases found : (machine.eval setting.query?).1 with
    | error failure =>
        rw [found] at only
        exact ⟨failure, congrArg Prod.fst (Attempt.eval_bind_error (Prod.ext found rfl)),
          only.of_error⟩
    | ok query =>
        have step : machine.eval setting.query? = (.ok query, machine) :=
          Prod.ext found (setting.still_query? machine)
        rw [remove, Machine.eval, Attempt.eval_bind_ok step]
        cases query with
        | none => exact ⟨_, rfl, rfl⟩
        | some query => exact stops
  · exact stops

omit isName in
/-- **A command** over a healthy storage ends with an exit code that says what it has done. -/
theorem run_tells (accepted : setting.command.verb.operandNames ≠ [] →
      checkedName setting.collectionValue = .ok setting.collection) :
    Leaves setting.root setting.run machine fun result view' => ∃ code, result = .ok code
      ∧ (code ≠ 0 → Alike view view')
      ∧ (setting.destroys = true → ¬ setting.isConfirmed machine →
        (setting.environment.isTerminal = true → ∃ line, lineOf? machine = some line) → code ≠ 0)
      ∧ (setting.Apart view → (code = 2 ↔ setting.Misses machine view)) := by
  obtain ⟨view', houses, unlocked', tells⟩ := body_tells healthy ready unlocked accepted
  obtain ⟨ends, rested⟩ := setting.eval_run machine
  refine ⟨view', ?_, unlocked', _, ends, fun notZero => ?_, fun destroys refused answered => ?_,
    tells.misses⟩
  · rw [rested.disk]
    exact houses
  · cases result : (machine.eval setting.body).1 with
    | ok _ =>
        rw [result] at notZero
        exact absurd rfl notZero
    | error failure => exact tells.spares failure result
  · obtain ⟨failure, fails, ordinary⟩ := body_refused destroys refused answered
    rw [fails, exitCode, ordinary]
    exact Nat.one_ne_zero

end Setting

/-! ## Runs -/

/-- What a command line is about, if it names a command. -/
def settingOf? (environment : Environment) (arguments : List String) : Option Setting :=
  (resolve arguments).toOption.map fun asked => ⟨environment, asked.1, asked.2⟩

/-- The root of the storage that a command line uses. -/
def rootOf (environment : Environment) (arguments : List String) : Path :=
  match settingOf? environment arguments with
  | some setting => setting.root
  | none => resolveRoot environment none

section

variable {environment : Environment} {arguments : List String}

theorem settingOf?_of_ok {common : Common} {command : Command}
    (resolved : resolve arguments = .ok (common, command)) :
    settingOf? environment arguments = some ⟨environment, common, command⟩ := by
  rw [settingOf?, resolved]
  rfl

theorem settingOf?_of_error {reason : Stop} (resolved : resolve arguments = .error reason) :
    settingOf? environment arguments = none := by
  rw [settingOf?, resolved]
  rfl

/-- A command line that names no command prints something and ends with another code than 2. -/
theorem eval_stop (reason : Stop) (machine : Machine) :
    ∃ code after, machine.eval (stop reason) = (.ok code, after) ∧ Rested machine after
      ∧ code ≠ 2 := by
  cases reason with
  | help wanted => cases wanted <;> exact ⟨_, _, rfl, ⟨rfl, rfl⟩, by decide⟩
  | _ => exact ⟨_, _, rfl, ⟨rfl, rfl⟩, by decide⟩

/-- **A run of the command line** over a healthy storage.  Unless its exit code is 0, nothing has
changed.  The code is not 0 if something was to be destroyed that is not confirmed, as long as a
terminal answers.  It is 2 exactly when what the command is about is not there, as far as the digest
tells identifiers apart. -/
theorem run_exits {machine : Machine} {view : Branch} (healthy : Healthy view)
    (unlocked : Unlocked (locksOf view))
    (houses : Houses (rootOf environment arguments) view machine.disk)
    (usable : ∀ call, ∃ id, Identifier.check (machine.generator call) = .ok id) :
    ∃ code after view', machine.attempt (run environment arguments) = (.ok code, after)
      ∧ Houses (rootOf environment arguments) view' after.disk ∧ Unlocked (locksOf view')
      ∧ (code ≠ 0 → Alike view view')
      ∧ (∀ setting, settingOf? environment arguments = some setting → setting.destroys = true →
        ¬ setting.isConfirmed machine →
        (environment.isTerminal = true → ∃ line, lineOf? machine = some line) → code ≠ 0)
      ∧ ((∀ setting, settingOf? environment arguments = some setting → setting.Apart view) →
        (code = 2 ↔ ∃ setting, settingOf? environment arguments = some setting
          ∧ setting.Misses machine view)) := by
  cases resolved : resolve arguments with
  | error reason =>
      have noSetting : settingOf? environment arguments = none := settingOf?_of_error resolved
      obtain ⟨code, after, ends, rested, notTwo⟩ := eval_stop reason machine
      have runs : machine.attempt (run environment arguments) = (.ok code, after) := by
        rw [run, resolved]
        exact ends
      rw [noSetting]
      refine ⟨code, after, view, runs, ?_, unlocked, fun _ => .refl view,
        fun _ isSetting => (nomatch isSetting), fun _ => ?_⟩
      · rw [rested.disk]
        exact houses
      · exact iff_of_false notTwo fun ⟨_, isSetting, _⟩ => nomatch isSetting
  | ok asked =>
      obtain ⟨common, command⟩ := asked
      let setting : Setting := ⟨environment, common, command⟩
      have isSetting : settingOf? environment arguments = some setting := settingOf?_of_ok resolved
      have sameRoot : rootOf environment arguments = setting.root := by
        rw [rootOf, isSetting]
      have runs : run environment arguments = setting.run := by
        rw [run, resolved]
      rw [sameRoot] at houses
      have accepted (needs : command.verb.operandNames ≠ []) :
          checkedName setting.collectionValue = .ok setting.collection :=
        Database.checkedName_ofString
          (Files.named_of_nameFault? (nameFault?_of_resolve resolved needs))
      obtain ⟨view', houses', unlocked', code, ends, spares, refuses, misses⟩ :=
        setting.run_tells healthy ⟨houses, usable⟩ unlocked accepted
      rw [sameRoot, isSetting, runs]
      refine ⟨code, _, view', Prod.ext ends rfl, houses', unlocked', spares, ?_, fun apart => ?_⟩
      · rintro _ ⟨⟩ destroys refused answered
        exact refuses destroys refused answered
      · rw [misses (apart setting rfl)]
        exact ⟨fun missing => ⟨setting, rfl, missing⟩, fun ⟨_, same, missing⟩ =>
          Option.some.inj same ▸ missing⟩

end

/-! ## An empty disk -/

/-- A process in the uppermost directory whose input is no terminal. -/
def topEnvironment : Environment where
  valueOf _ := none
  home := "/"
  workingDirectory := []
  isTerminal := false
  logger := ⟨.warn, true⟩

/-- The machine's own identifiers can be used. -/
theorem check_numberedId (number : Nat) :
    ∃ id, Identifier.check (Machine.numberedId number) = .ok id :=
  by
  have nonempty : Identifier.ofBytes (Digest.bigEndian Identifier.byteCount number) ≠ "" := by
    intro empty
    have noDigits := congrArg String.toList empty
    rw [Identifier.ofBytes, String.toList_ofList] at noDigits
    exact List.cons_ne_nil _ _ noDigits
  exact ⟨_, if_neg nonempty⟩

/-- A command line that drops a collection without asking. -/
def dropArguments : List String := ["drop", "users", "--force"]

/-- What that command line is about. -/
def dropSetting : Setting :=
  ⟨topEnvironment, ⟨none, false, false⟩, ⟨.drop, "users", "", ⟨none, none⟩, ["force"]⟩⟩

theorem settingOf?_drop : settingOf? topEnvironment dropArguments = some dropSetting :=
  settingOf?_of_ok (by decide +kernel)

/-- On an empty disk there is no collection to be dropped, so the exit code is 2. -/
theorem run_exits_start :
    Healthy (fun _ => none) ∧ Unlocked (locksOf fun _ => none)
      ∧ Houses (rootOf topEnvironment dropArguments) (fun _ => none) Machine.start.disk
      ∧ (∀ call, ∃ id, Identifier.check (Machine.start.generator call) = .ok id)
      ∧ ∃ after,
        Machine.start.attempt (run topEnvironment dropArguments) = (.ok 2, after) := by
  have houses : Houses (rootOf topEnvironment dropArguments) (fun _ => none)
      Machine.start.disk := by
    rw [rootOf, settingOf?_drop]
    exact .unmade Database.unmade_start
  obtain ⟨code, after, _, runs, _, _, _, _, missing⟩ := run_exits FileStore.healthy_nothing
    unlocked_nothing houses check_numberedId
  have apart (setting : Setting)
      (isSetting : settingOf? topEnvironment dropArguments = some setting) :
      setting.Apart fun _ => none := by
    obtain rfl := Option.some.inj (settingOf?_drop.symm.trans isSetting)
    exact fun isRemoval => nomatch isRemoval
  obtain rfl := (missing apart).mpr ⟨dropSetting, settingOf?_drop, .inl rfl, rfl⟩
  exact ⟨FileStore.healthy_nothing, unlocked_nothing, houses, check_numberedId, after, runs⟩

/-! ## A root whose path is too long -/

/-- Sixteen directories inside each other, with names that are nearly as long as names may be. -/
def deepDirectory : Path := List.replicate 16 (String.ofList (List.replicate 251 'a'))

/-- A process in a directory whose path is nearly as long as paths may be. -/
def deepEnvironment : Environment :=
  { topEnvironment with workingDirectory := deepDirectory }

/-- A machine with that directory. -/
def deepMachine : Machine := Machine.start.withDirectory deepDirectory

/-- A command line that inserts a document. -/
def insertArguments : List String := ["insert", "users", "--data", "\x7b\"_id\":\"ann\"\x7d"]

/-- Where paths get too long, a command that fails may leave a new collection behind: there is room
for the directories of the collection, but not for the file that is to be written. -/
theorem failed_insert_leaves_collection :
    (∀ names, deepMachine.disk.entry? (rootOf deepEnvironment insertArguments ++ names) = none)
      ∧ ∃ after identity,
        deepMachine.attempt (run deepEnvironment insertArguments) = (.ok 1, after)
          ∧ after.disk.entry? (rootOf deepEnvironment insertArguments ++ ["users", "docs"])
            = some (.directory identity) := by
  have isRoot : rootOf deepEnvironment insertArguments = deepDirectory ++ ["data"] := by
    decide +kernel
  have above : ∀ entry ∈ deepMachine.disk.entries, entry.1.length ≤ 16 := by
    decide +kernel
  have ends : ((deepMachine.attempt (run deepEnvironment insertArguments)).1.toOption,
      (deepMachine.attempt (run deepEnvironment insertArguments)).2.disk.entry?
        (deepDirectory ++ ["data", "users", "docs"])) = (some 1, some (.directory 21)) := by
    decide +kernel
  rw [isRoot]
  constructor
  · intro names
    rw [Disk.entry?_eq_lookup _ (by simp), Lookup.lookup_eq_none_iff]
    intro isPlace
    obtain ⟨entry, member, same⟩ := List.mem_map.mp isPlace
    have few := above entry member
    rw [same, List.length_append, List.length_append, deepDirectory, List.length_replicate,
      List.length_singleton] at few
    omega
  · generalize deepMachine.attempt (run deepEnvironment insertArguments) = ended at ends ⊢
    obtain ⟨result, after⟩ := ended
    obtain ⟨isOne, isDirectory⟩ := Prod.mk.inj ends
    cases result with
    | error failure => cases isOne
    | ok code =>
        cases isOne
        exact ⟨after, 21, rfl, isDirectory⟩

end DocStore.CommandLine
