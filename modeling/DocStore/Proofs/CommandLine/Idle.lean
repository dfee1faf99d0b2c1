import DocStore.CommandLine.Run
import DocStore.Proofs.Attempt
import DocStore.Proofs.Host.Run
import DocStore.Proofs.Json.WellFormed
/-!
# What commands do besides their database operation

Before a command uses the database it reads its input and may ask a question, and afterwards it
prints.  All that is idle: it leaves the disk and the identifier generator as they are, and it fails
in known ways only (`Idle`).  Input that is refused ends a command with the code 1
(`idle_readSource`).  A question passes exactly when it is confirmed (`confirm_ok_iff`), and a refusal
that is given ends a command with the code 1 as well (`confirm_refused`).  Printing does not fail, and
neither does the line that tells how long a command took (`eval_timed`).
-/

set_option autoImplicit false

namespace DocStore.CommandLine

open Attempt (Only)
open Host (Action Machine Stream ask print printLine)

/-- The disk and the identifier generator of a machine are left as they are. -/
structure Rested (before after : Machine) : Prop where
  disk : after.disk = before.disk
  generator : after.generator = before.generator

theorem Rested.refl (machine : Machine) : Rested machine machine := ⟨rfl, rfl⟩

theorem Rested.trans {first second third : Machine} (left : Rested first second)
    (right : Rested second third) : Rested first third :=
  ⟨right.disk.trans left.disk, right.generator.trans left.generator⟩

/-- An action leaves disk and generator as they are, and fails with failures of a kind only. -/
def Idle {α : Type} (kind : Failure → Prop) (action : Action α) : Prop :=
  ∀ machine : Machine, Rested machine (machine.eval action).2 ∧ Only kind (machine.eval action).1

namespace Idle

variable {α β : Type} {kind kind' : Failure → Prop}

theorem mono {action : Action α} (idle : Idle kind action)
    (implies : ∀ failure, kind failure → kind' failure) : Idle kind' action := fun machine =>
  ⟨(idle machine).1, (idle machine).2.mono implies⟩

theorem ofExcept {result : Except Failure α} (only : Only kind result) :
    Idle kind (Attempt.ofExcept result : Action α) := fun machine => ⟨.refl machine, only⟩

theorem pure (value : α) : Idle kind (Pure.pure value : Action α) := ofExcept (.ok value)

theorem fail {failure : Failure} (isKind : kind failure) :
    Idle kind (Attempt.fail failure : Action α) := ofExcept (.error isKind)

theorem ask {request : Host.Request}
    (rested : ∀ machine, Rested machine (Machine.answer request machine).2) :
    Idle kind (Host.ask request) := fun machine => ⟨rested machine, .ok _⟩

theorem bind {first : Action α} {next : α → Action β} (idle : Idle kind first)
    (goesOn : ∀ value, Idle kind (next value)) : Idle kind (first >>= next) := by
  intro machine
  obtain ⟨rested, only⟩ := idle machine
  rw [Machine.eval, Attempt.eval_bind]
  cases result : (machine.eval first).1 with
  | ok value =>
      obtain ⟨rested', only'⟩ := goesOn value (machine.eval first).2
      exact ⟨rested.trans rested', only'⟩
  | error failure =>
      rw [result] at only
      exact ⟨rested, .error only.of_error⟩

theorem map {action : Action α} (change : α → β) (idle : Idle kind action) :
    Idle kind (change <$> action) := by
  rw [map_eq_pure_bind]
  exact idle.bind fun value => pure _

/-- Whatever comes of an action can be handled. -/
theorem outcome {action : Action α} (idle : Idle kind action) : Idle kind' action.outcome := by
  intro machine
  rw [Machine.eval, Attempt.eval_outcome]
  exact ⟨(idle machine).1, .ok _⟩

theorem forEach {ι : Type} {list : List ι} {action : ι → Action α}
    (each : ∀ element, Idle kind (action element)) : Idle kind (Attempt.forEach list action) := by
  induction list with
  | nil => exact pure []
  | cons head rest ih => exact bind (each head) fun first => bind ih fun others => pure _

/-- What is idle and does not fail succeeds. -/
theorem eval_ok {action : Action α} (idle : Idle (fun _ => False) action) (machine : Machine) :
    ∃ value after, machine.eval action = (.ok value, after) ∧ Rested machine after := by
  obtain ⟨rested, only⟩ := idle machine
  cases result : (machine.eval action).1 with
  | ok value => exact ⟨value, _, Prod.ext result rfl, rested⟩
  | error failure =>
      rw [result] at only
      exact only.of_error.elim

/-- What is idle and does not fail has no result to tell but that. -/
theorem eval_unit {action : Action Unit} (idle : Idle (fun _ => False) action) (machine : Machine) :
    (machine.eval action).1 = .ok () := by
  obtain ⟨_, _, ends, _⟩ := idle.eval_ok machine
  rw [ends]

theorem any {action : Action α} (idle : Idle kind action) : Idle (fun _ => True) action :=
  idle.mono fun _ _ => trivial

end Idle

/-- An action changes nothing at all. -/
def Still {α : Type} (action : Action α) : Prop :=
  ∀ machine : Machine, (machine.eval action).2 = machine

namespace Still

variable {α β : Type}

theorem ofExcept (result : Except Failure α) : Still (Attempt.ofExcept result : Action α) :=
  fun _ => rfl

theorem bind {first : Action α} {next : α → Action β} (still : Still first)
    (goesOn : ∀ value, Still (next value)) : Still (first >>= next) := by
  intro machine
  rw [Machine.eval, Attempt.eval_bind]
  cases (machine.eval first).1 with
  | ok value => exact (goesOn value _).trans (still machine)
  | error failure => exact still machine

theorem map {action : Action α} (change : α → β) (still : Still action) :
    Still (change <$> action) := by
  rw [map_eq_pure_bind]
  exact still.bind fun value => ofExcept (.ok (change value))

end Still

/-! ## Printing -/

section

variable {kind : Failure → Prop}

theorem idle_print (stream : Stream) (text : String) : Idle kind (print stream text) :=
  .ask fun _ => ⟨rfl, rfl⟩

theorem idle_printLine (stream : Stream) (text : String) : Idle kind (printLine stream text) :=
  idle_print stream _

theorem idle_printLines (lines : List String) : Idle kind (printLines lines) :=
  .bind (.forEach fun _ => idle_printLine _ _) fun _ => .pure ()

theorem idle_printStatus (quiet : Bool) (message : String) :
    Idle kind (printStatus quiet message) := by
  unfold printStatus
  split
  · exact idle_printLine _ _
  · exact .pure ()

end

/-! ## Input -/

/-- A failure that ends a command with the code 1. -/
def Ordinary (failure : Failure) : Prop := failure.exitCode = 1

theorem only_ofInput {ε α : Type} (fault : ε → InputFault) (result : Except ε α) :
    Only Ordinary (result.mapError fun error => .ofInput (fault error)) := by
  refine Attempt.only_mapError (fun error => ?_) result
  rfl

theorem only_parseJson (source text : String) : Only Ordinary (parseJson source text) := by
  have refuses (reason : String) : Only Ordinary (refuseJson source reason : Except Failure Json) :=
    .error rfl
  simp only [parseJson]
  split
  · exact refuses _
  · split
    · exact .ok _
    · exact refuses _

theorem still_readFile (environment : Environment) (file : String) :
    Still (readFile environment file) := .bind (fun _ => rfl) fun _ => .ofExcept _

theorem idle_readFile (environment : Environment) (file : String) :
    Idle Ordinary (readFile environment file) := by
  have ordinary (errno : Disk.Errno) : Ordinary (readFailure file errno) := by
    unfold readFailure
    split <;> rfl
  refine .bind (fun machine => ⟨⟨rfl, rfl⟩, Attempt.only_mapError ordinary _⟩) fun text => ?_
  exact .ofExcept (only_parseJson ("file " ++ file) text)

theorem idle_readInputJson (environment : Environment) :
    Idle Ordinary (readInputJson environment) := by
  have only (pieces : List String) :
      Only (fun _ => True) (inputText defaultMaxBytes pieces) := by
    cases inputText defaultMaxBytes pieces with
    | ok text => exact .ok text
    | error failure => exact .error trivial
  have reads : Idle (fun _ => True) (readInput defaultMaxBytes) :=
    .bind (.ask fun _ => ⟨rfl, rfl⟩) fun pieces => .ofExcept (only pieces)
  unfold readInputJson
  split
  · exact .fail rfl
  · refine .bind reads.outcome fun result => ?_
    cases result with
    | error failure => exact .fail rfl
    | ok text =>
        show Idle Ordinary (if isEmptyText text then _ else _)
        split
        · exact .fail rfl
        · exact .ofExcept (only_parseJson "stdin" text)

/-- **Input that is refused** ends a command with the code 1. -/
theorem idle_readSource (environment : Environment) (source : Source) (allowInput : Bool) :
    Idle Ordinary (readSource environment source allowInput) := by
  unfold readSource
  split
  next => exact .fail rfl
  next file _ _ => exact (idle_readFile environment file).map some
  next data _ _ => exact .ofExcept ((only_parseJson "--data" data).map some)
  next =>
    split
    · exact (idle_readInputJson environment).map some
    · exact .pure none

/-- Where the input of the process is not allowed, nothing changes at all. -/
theorem still_readSource (environment : Environment) (source : Source) :
    Still (readSource environment source false) := by
  unfold readSource
  split
  · exact .ofExcept _
  · exact (still_readFile environment _).map some
  · exact .ofExcept _
  · exact .ofExcept _

namespace Setting

variable (setting : Setting)

theorem idle_input : Idle Ordinary setting.input :=
  .bind (idle_readSource _ _ _) fun _ => .pure _

theorem idle_document : Idle Ordinary setting.document :=
  .bind setting.idle_input fun _ =>
    .bind (.ofExcept (only_ofInput _ _)) fun _ => .pure _

theorem idle_spec : Idle Ordinary setting.spec :=
  .bind setting.idle_input fun _ =>
    .bind (.ofExcept (only_ofInput _ _)) fun _ => .pure _

theorem idle_query? : Idle Ordinary setting.query? := by
  refine .bind (idle_readSource _ _ _) fun value => ?_
  cases value with
  | none => exact .pure none
  | some value =>
      have only : Only Ordinary (Database.checkedQuery (Caller.ofJson value)) := only_ofInput _ _
      exact (Idle.ofExcept only).map some

theorem idle_query : Idle Ordinary setting.query :=
  .bind setting.idle_query? fun _ => .pure _

theorem still_query? : Still setting.query? := by
  refine .bind (still_readSource _ _) fun value => ?_
  cases value with
  | none => exact .ofExcept _
  | some value => exact (Still.ofExcept _).map some

theorem still_query : Still setting.query := .bind setting.still_query? fun _ => .ofExcept _

end Setting

/-! ## Questions -/

/-- The line that is read from the input of a machine, if one ends there. -/
def lineOf? (machine : Machine) : Option String :=
  if Host.hasLine (String.join machine.input) then
    some (Machine.firstLine (String.join machine.input).toList).1
  else none

theorem eval_readLine (machine : Machine) :
    (machine.eval (ask .readLine)).1 = .ok (lineOf? machine) := by
  show Except.ok (Prod.fst (if Host.hasLine (String.join machine.input) then _ else _)) = _
  unfold lineOf?
  split <;> rfl

/-- What is to be destroyed is confirmed: by an option, or on a terminal by an answer. -/
def Confirmed (environment : Environment) (force : Bool) (machine : Machine) : Prop :=
  force = true ∨ environment.isTerminal = true
    ∧ ∃ line, lineOf? machine = some line ∧ confirms line = true

section

variable (environment : Environment) (force : Bool) (question : String)

/-- Without a terminal nothing can be asked. -/
theorem confirm_unasked {environment : Environment} (noTerminal : environment.isTerminal = false) :
    confirm environment false question
      = Attempt.fail (.invalidArgument "Use --force to confirm in non-interactive mode") := by
  unfold confirm
  rw [noTerminal]
  rfl

theorem confirm_asked {environment : Environment} (terminal : environment.isTerminal = true) :
    confirm environment false question = (do
      print .errors (question ++ " (y/N) ")
      match ← ask .readLine with
      | none => Attempt.fail .unanswered
      | some answer =>
          if confirms answer then return ()
          else Attempt.fail (.command "Aborted by user" 1 none)) := by
  unfold confirm
  rw [terminal]
  rfl

/-- What comes of a question that is asked. -/
theorem eval_confirm {environment : Environment} (terminal : environment.isTerminal = true)
    (machine : Machine) :
    (machine.eval (confirm environment false question)).1
      = match lineOf? machine with
        | none => .error .unanswered
        | some line =>
            if confirms line then .ok () else .error (.command "Aborted by user" 1 none) := by
  let asked : Machine :=
    { machine with printed := (.errors, question ++ " (y/N) ") :: machine.printed }
  have prints : machine.eval (print .errors (question ++ " (y/N) ")) = (.ok (), asked) := rfl
  have reads : (Attempt.eval Machine.answer (ask .readLine) asked).1 = .ok (lineOf? machine) :=
    eval_readLine asked
  rw [confirm_asked question terminal, Machine.eval, Attempt.eval_bind_ok prints,
    Attempt.eval_bind, reads]
  cases lineOf? machine with
  | none => rfl
  | some line =>
      dsimp only
      split <;> rfl

/-- **A question passes** exactly when it is confirmed. -/
theorem confirm_ok_iff (machine : Machine) :
    (machine.eval (confirm environment force question)).1 = .ok ()
      ↔ Confirmed environment force machine := by
  cases force with
  | true => exact iff_of_true rfl (.inl rfl)
  | false =>
      cases terminal : environment.isTerminal with
      | false =>
          rw [confirm_unasked question terminal, Confirmed, terminal]
          simp
      | true =>
          rw [eval_confirm question terminal, Confirmed, terminal]
          cases lineOf? machine with
          | none => simp
          | some line => cases confirms line <;> simp

/-- **A command that is not confirmed** ends with the code 1, unless its question is left open. -/
theorem confirm_refused {machine : Machine} (refused : ¬ Confirmed environment force machine)
    (answered : environment.isTerminal = true → ∃ line, lineOf? machine = some line) :
    ∃ failure, (machine.eval (confirm environment force question)).1 = .error failure
      ∧ Ordinary failure := by
  rw [Confirmed, not_or, Bool.not_eq_true] at refused
  obtain ⟨rfl, notAnswered⟩ := refused
  cases terminal : environment.isTerminal with
  | false =>
      rw [confirm_unasked question terminal]
      exact ⟨_, rfl, rfl⟩
  | true =>
      obtain ⟨line, isLine⟩ := answered terminal
      have denies : confirms line = false := by
        by_contra confirmed
        exact notAnswered ⟨terminal, line, isLine, by simpa using confirmed⟩
      refine ⟨.command "Aborted by user" 1 none, ?_, rfl⟩
      rw [eval_confirm question terminal, isLine]
      simp [denies]

/-- A question leaves disk and generator as they are, and never ends a command with the code 2. -/
theorem idle_confirm : Idle (fun failure => failure.exitCode ≠ 2)
    (confirm environment force question) := by
  cases force with
  | true => exact .pure ()
  | false =>
      cases terminal : environment.isTerminal with
      | false =>
          rw [confirm_unasked question terminal]
          exact .fail (by decide)
      | true =>
          rw [confirm_asked question terminal]
          refine .bind (idle_print _ _) fun _ => .bind (.ask fun machine => ?_) fun answer => ?_
          · show Rested machine
              (Prod.snd (if Host.hasLine (String.join machine.input) then _ else _))
            split <;> exact ⟨rfl, rfl⟩
          · cases answer with
            | none => exact .fail (by decide)
            | some line =>
                dsimp only
                split
                · exact .pure ()
                · exact .fail (by decide)

end

/-! ## Timing -/

/-- Scalars have text forms, so they can be told in a timing line. -/
theorem metricPart?_scalar (key : String) (scalar : Scalar) (around : List (Caller.Value × Nat)) :
    ∃ text, metricPart? (key, ⟨.scalar scalar, around⟩) = some text := by
  cases scalar <;> exact ⟨_, rfl⟩

theorem exists_mapM {α β : Type} {f : α → Option β} {list : List α}
    (each : ∀ element ∈ list, ∃ value, f element = some value) :
    ∃ values, list.mapM f = some values := by
  induction list with
  | nil => exact ⟨[], rfl⟩
  | cons head rest ih =>
      obtain ⟨value, isValue⟩ := each head (by simp)
      obtain ⟨values, areValues⟩ := ih fun element member =>
        each element (List.mem_cons_of_mem _ member)
      exact ⟨value :: values, by rw [List.mapM_cons, isValue, areValues]; rfl⟩

namespace Setting

variable (setting : Setting)

/-- There is a timing line for every command. -/
theorem exists_metricLine (milliseconds : Nat) (success : Bool) :
    ∃ line, metricLine? setting.command.verb.metricName
      (CommandLine.timed setting.metricSubject milliseconds success) = some line := by
  have parts : ∃ subject : List (String × Caller.View),
      (Caller.View.ofValue setting.metricSubject).entries?.getD [] = subject
      ∧ (subject.map Prod.fst = [] ∨ subject.map Prod.fst = ["collection"])
      ∧ ∀ part ∈ subject, ∃ scalar around, part.2 = ⟨.scalar scalar, around⟩ := by
    unfold metricSubject
    split
    · exact ⟨[], rfl, .inl rfl, fun part member => nomatch member⟩
    · refine ⟨_, rfl, .inr rfl, fun part member => ?_⟩
      rw [List.mem_singleton.mp member]
      exact ⟨_, _, rfl⟩
  obtain ⟨subject, isSubject, keys, scalars⟩ := parts
  have distinct : ((subject ++ [("duration_ms", Caller.View.ofValue
      (.scalar (.number (.ofNat milliseconds)))), ("success", .ofValue
        (.scalar (.boolean success)))]).map Prod.fst).Nodup := by
    rw [List.map_append]
    rcases keys with none | one
    · simp [none]
    · simp [one]
  have texts : ∃ texts, (CommandLine.timed setting.metricSubject milliseconds success).mapM
      metricPart? = some texts := by
    refine exists_mapM fun part member => ?_
    rw [CommandLine.timed, isSubject, Fields.ofList_eq_inKeyOrder distinct,
      (Fields.inKeyOrder_perm _).mem_iff, List.mem_append] at member
    obtain ⟨key, view⟩ := part
    rcases member with inSubject | inTime
    · obtain ⟨scalar, around, rfl⟩ := scalars _ inSubject
      exact metricPart?_scalar key scalar around
    · simp only [List.mem_cons, List.not_mem_nil, or_false, Prod.mk.injEq] at inTime
      rcases inTime with ⟨rfl, rfl⟩ | ⟨rfl, rfl⟩ <;> exact metricPart?_scalar _ _ _
  obtain ⟨texts, areTexts⟩ := texts
  exact ⟨_, by rw [metricLine?, areTexts]; rfl⟩

theorem idle_emitMetric (milliseconds : Nat) (success : Bool) :
    Idle (fun _ => False) (emitMetric setting.environment setting.command.verb.metricName
      (some (CommandLine.timed setting.metricSubject milliseconds success))) := by
  obtain ⟨line, isLine⟩ := setting.exists_metricLine milliseconds success
  unfold emitMetric
  split
  · rw [Option.bind_some, isLine]
    exact idle_print _ _
  · exact .pure ()

/-- **A timing line changes nothing** about what comes of a command. -/
theorem eval_timed (machine : Machine) :
    (machine.eval setting.timed).1 = (machine.eval setting.body).1
      ∧ Rested (machine.eval setting.body).2 (machine.eval setting.timed).2 := by
  have starts : machine.eval (ask .now) = (.ok machine.clock, machine) := rfl
  have ends : machine.eval setting.body.outcome
      = (.ok (machine.eval setting.body).1, (machine.eval setting.body).2) :=
    Attempt.eval_outcome Machine.answer setting.body machine
  rw [timed, withTiming, Machine.eval, Attempt.eval_bind_ok starts, Attempt.eval_bind_ok ends]
  generalize (machine.eval setting.body).1 = result, (machine.eval setting.body).2 = after
  split
  · have reads : after.eval (ask .now) = (.ok after.clock, after) := rfl
    obtain ⟨_, later, tells, rested⟩ := (setting.idle_emitMetric
      (after.clock - machine.clock).toNat (succeeded result)).eval_ok after
    have told : after.eval (do
        let now ← ask .now
        emitMetric setting.environment setting.command.verb.metricName (some (CommandLine.timed
          setting.metricSubject (now - machine.clock).toNat (succeeded result)))
        Attempt.ofExcept result) = (result, later) := by
      rw [Machine.eval, Attempt.eval_bind_ok reads, Attempt.eval_bind_ok tells]
      rfl
    exact ⟨congrArg Prod.fst told, (congrArg Prod.snd told).symm ▸ rested⟩
  · exact ⟨rfl, .refl _⟩

/-- What a command ends with. -/
def exitCode : Except Failure Unit → Nat
  | .ok _ => 0
  | .error failure => failure.exitCode

/-- **A command always ends with an exit code**, as its outcome says. -/
theorem eval_run (machine : Machine) :
    (machine.eval setting.run).1 = .ok (exitCode (machine.eval setting.body).1)
      ∧ Rested (machine.eval setting.body).2 (machine.eval setting.run).2 := by
  obtain ⟨same, rested⟩ := setting.eval_timed machine
  have ends : machine.eval setting.timed.outcome
      = (.ok (machine.eval setting.timed).1, (machine.eval setting.timed).2) :=
    Attempt.eval_outcome Machine.answer setting.timed machine
  rw [run, Machine.eval, Attempt.eval_bind_ok ends, ← same]
  generalize (machine.eval setting.timed).1 = result, (machine.eval setting.timed).2 = after
    at rested
  cases result with
  | ok _ => exact ⟨rfl, rested⟩
  | error failure =>
      have reports : Idle (fun _ => False) (do
          printLine .errors ("Error: " ++ report failure none setting.common.verbose)
          return failure.exitCode : Action Nat) := .bind (idle_printLine _ _) fun _ => .pure _
      cases failure with
      | unanswered => exact ⟨rfl, rested⟩
      | _ => exact ⟨rfl, rested.trans (reports after).1⟩

end Setting

end DocStore.CommandLine
