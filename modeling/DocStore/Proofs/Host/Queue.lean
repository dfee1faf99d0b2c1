import DocStore.Proofs.Asking
import DocStore.Proofs.Host.Steps
import DocStore.Proofs.OneByOne
/-!
# Programs that queue for one section

Programs that do all that they do in one section (`Visits`) go through it in the order in which they
have come to it.  While they make their steps in any order, those that have come stand in a line,
the first of them works, and all before it have ended (`Lined`).  So running what is left of them
one after another leads to the same end at every moment (`Lined.step`), and when all have ended it
has led there (`Pool.ends_in_order`).  They do all end as long as none of them is kept from making
steps (`Pool.all_end`).
-/

set_option autoImplicit false

namespace DocStore.Host

variable {α : Type}

/-! ## One visit -/

/-- A request that has to do with no section. -/
def Request.Free : Request → Prop
  | .enter _ | .leave _ => False
  | _ => True

/-- What is left of a program in a section: it asks what has to do with no section, and it ends when
it leaves the section. -/
inductive Inside (key : Section) : Program interface α → Prop
  | asks {request : Request} {next : request.Answer → Program interface α} (free : request.Free)
      (goesOn : ∀ answer, Inside key (next answer)) : Inside key (.ask request next)
  | leaves {next : Unit → Program interface α} {result : α} (ends : next () = .done result) :
      Inside key (.ask (.leave key) next)

/-- A program that does all that it does in a section. -/
inductive Visits (key : Section) : Program interface α → Prop
  | ended (result : α) : Visits key (.done result)
  | enters {next : Unit → Program interface α} (inside : Inside key (next ())) :
      Visits key (.ask (.enter key) next)

section

variable {β : Type} {key : Section}

/-- What has to do with no section may come first. -/
theorem Inside.bind {program : Program interface β} (asks : program.Asks Request.Free)
    {next : β → Program interface α} (goesOn : ∀ result, Inside key (next result)) :
    Inside key (program.bind next) := by
  induction asks with
  | done result => exact goesOn result
  | ask free _ ih => exact .asks free ih

theorem Inside.map {program : Program interface α} (inside : Inside key program) (change : α → β) :
    Inside key (program.bind fun result => .done (change result)) := by
  induction inside with
  | asks free _ ih => exact .asks free ih
  | @leaves next result ends =>
      have mapped : (next ()).bind (fun result => .done (change result)) = .done (change result) := by
        rw [ends, Program.done_bind]
      exact .leaves mapped

theorem Visits.map {program : Program interface α} (visits : Visits key program) (change : α → β) :
    Visits key (program.bind fun result => .done (change result)) := by
  cases visits with
  | ended result => exact .ended _
  | enters inside => exact .enters (inside.map change)

end

/-! ## What is left -/

theorem oneByOne_run_cons_done (result : α) (rest : List (Program interface α))
    (machine : Machine) :
    oneByOne Machine.run (.done result :: rest) machine
      = (result :: (oneByOne Machine.run rest machine).1, (oneByOne Machine.run rest machine).2) :=
  rfl

/-- A program that asks next may have its answer, when all before it have ended. -/
theorem oneByOne_run_set {programs : List (Program interface α)} {place : Nat} {request : Request}
    {next : request.Answer → Program interface α}
    (there : programs[place]? = some (.ask request next))
    (ended : ∀ earlier < place, ∃ result, programs[earlier]? = some (.done result))
    (machine : Machine) :
    oneByOne Machine.run (programs.set place (next (Machine.answer request machine).1))
        (Machine.answer request machine).2
      = oneByOne Machine.run programs machine := by
  induction programs generalizing place with
  | nil => cases there
  | cons program rest ih =>
      cases place with
      | zero =>
          cases there
          rfl
      | succ place =>
          obtain ⟨result, isDone⟩ := ended 0 (Nat.succ_pos place)
          cases isDone
          have goesOn := ih there fun earlier before => ended (earlier + 1) (Nat.succ_lt_succ before)
          rw [List.set_cons_succ, oneByOne_run_cons_done, goesOn, oneByOne_run_cons_done]

theorem oneByOne_run_done (results : List α) (machine : Machine) :
    oneByOne Machine.run (results.map Program.done) machine = (results, machine) := by
  induction results with
  | nil => rfl
  | cons result rest ih =>
      rw [List.map_cons, oneByOne_run_cons_done, ih]

namespace Pool

/-- What comes of what is left of the programs, one after another in the order of their places. -/
def ahead (pool : Pool α) : List α × Machine :=
  oneByOne Machine.run (pool.threads.map Thread.program) pool.machine

variable {pool : Pool α}

/-- Nothing is left of programs that have ended. -/
theorem ahead_of_results {results : List α} (ended : pool.results? = some results) :
    pool.ahead = (results, pool.machine) := by
  have programs : pool.threads.map Thread.program = results.map Program.done := by
    apply List.ext_getElem?
    intro place
    have isProgram := Pool.program?_of_results ended place
    rwa [Pool.program?, ← List.getElem?_map, ← List.getElem?_map] at isProgram
  rw [ahead, programs, oneByOne_run_done]

/-- Programs that have all ended have their results. -/
theorem isSome_results? (ended : ∀ thread ∈ pool.threads, ∃ result, thread.program = .done result) :
    pool.results?.isSome := by
  unfold results?
  generalize pool.threads = threads at ended
  induction threads with
  | nil => rfl
  | cons thread rest ih =>
      obtain ⟨result, isDone⟩ := ended thread List.mem_cons_self
      obtain ⟨results, areResults⟩ := Option.isSome_iff_exists.mp
        (ih fun other member => ended other (List.mem_cons_of_mem _ member))
      rw [List.mapM_cons, isDone, areResults]
      rfl

theorem ahead_setThread {place : Nat} {request : Request}
    {next : request.Answer → Program interface α} {queued : Bool}
    (there : pool.threads[place]? = some ⟨.ask request next, queued⟩)
    (ended : ∀ earlier < place, ∃ result, pool.program? earlier = some (.done result))
    (sections : Mutex Section Nat) :
    ahead { pool.setThread place ⟨next (Machine.answer request pool.machine).1, false⟩ with
        sections, machine := (Machine.answer request pool.machine).2 }
      = pool.ahead := by
  have isNext : (pool.threads.map Thread.program)[place]? = some (.ask request next) := by
    rw [List.getElem?_map, there, Option.map_some]
  have done (earlier : Nat) (before : earlier < place) :
      ∃ result, (pool.threads.map Thread.program)[earlier]? = some (.done result) := by
    obtain ⟨result, isDone⟩ := ended earlier before
    exact ⟨result, by rw [List.getElem?_map]; exact isDone⟩
  rw [ahead, setThread, List.map_set]
  exact oneByOne_run_set isNext done pool.machine

end Pool

/-! ## The line -/

/-- Where a program stands when those of the places before `begun` have started: it has not started,
it waits in the line, it is the first in the line and works, or it has ended. -/
inductive Position (key : Section) (begun : Nat) (line : List Nat) (place : Nat) :
    Thread α → Prop
  | fresh {next : Unit → Program interface α} (late : begun ≤ place) (inside : Inside key (next ())) :
      Position key begun line place ⟨.ask (.enter key) next, false⟩
  | waits {next : Unit → Program interface α} (member : place ∈ line)
      (inside : Inside key (next ())) : Position key begun line place ⟨.ask (.enter key) next, true⟩
  | works {program : Program interface α} (first : line.head? = some place)
      (inside : Inside key program) : Position key begun line place ⟨program, false⟩
  | ended {result : α} (gone : place ∉ line) : Position key begun line place ⟨.done result, false⟩

/-- Programs that have started stand in a line. -/
structure Lined (key : Section) (begun : Nat) (line : List Nat) (pool : Pool α) : Prop where
  isLine : pool.sections.queue key = line
  rises : line.Pairwise (· < ·)
  started : ∀ place ∈ line, place < begun
  present : ∀ place ∈ line, place < pool.threads.length
  position : ∀ (place : Nat) (thread : Thread α), pool.threads[place]? = some thread →
    Position key begun line place thread

namespace Lined

variable {key : Section} {begun : Nat} {line : List Nat} {pool : Pool α} {place : Nat}

/-- Programs that have not started. -/
theorem start {programs : List (Program interface α)}
    (visits : ∀ program ∈ programs, Visits key program) (machine : Machine) :
    Lined key 0 [] (Pool.start programs machine) where
  isLine := rfl
  rises := .nil
  started _ member := nomatch member
  present _ member := nomatch member
  position place thread there := by
    obtain ⟨program, isProgram, rfl⟩ := Option.map_eq_some_iff.mp
      ((List.getElem?_map ..).symm.trans there)
    have visit := visits program (List.mem_of_getElem? isProgram)
    cases visit with
    | ended result => exact .ended List.not_mem_nil
    | enters inside => exact .fresh (Nat.zero_le place) inside

variable (lined : Lined key begun line pool)
include lined

/-- Whoever has started and is not in the line has ended. -/
theorem ended {earlier : Nat} (hasStarted : earlier < begun) (gone : earlier ∉ line)
    (inside : earlier < pool.threads.length) :
    ∃ result, pool.program? earlier = some (.done result) := by
  have there := List.getElem?_eq_getElem inside
  have position := lined.position earlier _ there
  generalize pool.threads[earlier] = thread at position there
  cases position with
  | fresh late => exact absurd hasStarted (Nat.not_lt.mpr late)
  | waits member => exact absurd member gone
  | works first => exact absurd (List.mem_of_head? first) gone
  | @ended result _ => exact ⟨result, by rw [Pool.program?, there, Option.map_some]⟩

/-- All before the first in the line have ended. -/
theorem ended_before {first : Nat} (isFirst : line.head? = some first)
    (there : first < pool.threads.length) {earlier : Nat} (before : earlier < first) :
    ∃ result, pool.program? earlier = some (.done result) := by
  obtain ⟨rest, rfl⟩ := List.head?_eq_some_iff.mp isFirst
  refine lined.ended (Nat.lt_trans before (lined.started first List.mem_cons_self)) ?_
    (Nat.lt_trans before there)
  intro member
  rcases List.mem_cons.mp member with rfl | later
  · exact Nat.lt_irrefl _ before
  · exact Nat.lt_asymm before (List.rel_of_pairwise_cons lined.rises later)

omit lined in
/-- The threads stand where they should after one of them has been replaced. -/
theorem position_set {begun' : Nat} {line' : List Nat} {threads : List (Thread α)}
    {thread : Thread α} (own : Position key begun' line' place thread)
    (others : ∀ (other : Nat) (thread : Thread α), other ≠ place →
      threads[other]? = some thread → Position key begun' line' other thread)
    (other : Nat) (thread' : Thread α) (there : (threads.set place thread)[other]? = some thread') :
    Position key begun' line' other thread' := by
  by_cases same : other = place
  · subst same
    have inside : other < threads.length := by
      have isThere := (List.getElem?_eq_some_iff.mp there).1
      rwa [List.length_set] at isThere
    rw [List.getElem?_set_self inside] at there
    exact Option.some.inj there ▸ own
  · rw [List.getElem?_set_ne (Ne.symm same)] at there
    exact others other thread' same there

omit lined in
theorem present_set {line' : List Nat} {threads : List (Thread α)} {thread : Thread α}
    (present : ∀ other ∈ line', other < threads.length) (other : Nat) (member : other ∈ line') :
    other < (threads.set place thread).length := by
  rw [List.length_set]
  exact present other member

section

variable {next : Unit → Program interface α} {queued : Bool}

/-- The first in the line asks what has to do with no section. -/
theorem asks {request : Request} {next : request.Answer → Program interface α}
    (there : pool.threads[place]? = some ⟨.ask request next, queued⟩) (free : request.Free)
    (first : line.head? = some place) (goesOn : ∀ answer, Inside key (next answer)) :
    Lined key begun line (pool.step place) ∧ (pool.step place).ahead = pool.ahead
      ∧ (pool.step place).threads[place]?
        = some ⟨next (Machine.answer request pool.machine).1, false⟩ := by
  have inside : place < pool.threads.length := (List.getElem?_eq_some_iff.mp there).1
  have step : pool.step place
      = { pool.setThread place ⟨next (Machine.answer request pool.machine).1, false⟩ with
          machine := (Machine.answer request pool.machine).2 } := by
    rw [Pool.step, there]
    cases request <;> first | rfl | exact free.elim
  rw [step]
  refine ⟨⟨lined.isLine, lined.rises, lined.started, present_set lined.present, ?_⟩, ?_,
    List.getElem?_set_self inside⟩
  · exact position_set (.works first (goesOn _)) fun other thread _ => lined.position other thread
  · exact Pool.ahead_setThread there (fun earlier before => lined.ended_before first inside before) _

/-- The first in the line leaves the section. -/
theorem leaves (there : pool.threads[place]? = some ⟨.ask (.leave key) next, queued⟩)
    (first : line.head? = some place) {result : α} (ends : next () = .done result) :
    Lined key begun line.tail (pool.step place) ∧ (pool.step place).ahead = pool.ahead := by
  have inside : place < pool.threads.length := (List.getElem?_eq_some_iff.mp there).1
  have step : pool.step place
      = { pool.setThread place ⟨next (), false⟩ with sections := pool.sections.leave key } := by
    rw [Pool.step, there]
    rfl
  obtain ⟨rest, rfl⟩ := List.head?_eq_some_iff.mp first
  have gone : place ∉ rest := fun later =>
    Nat.lt_irrefl _ (List.rel_of_pairwise_cons lined.rises later)
  rw [step]
  refine ⟨⟨?_, lined.rises.of_cons,
    fun other member => lined.started other (List.mem_cons_of_mem _ member),
    present_set fun other member => lined.present other (List.mem_cons_of_mem _ member), ?_⟩, ?_⟩
  · show (pool.sections.leave key).queue key = rest
    rw [Mutex.queue_leave, if_pos rfl, lined.isLine, List.tail_cons]
  · refine position_set (ends ▸ .ended gone) fun other thread differs isThread => ?_
    cases lined.position other thread isThread with
    | fresh late inside => exact .fresh late inside
    | waits member inside => exact .waits ((List.mem_cons.mp member).resolve_left differs) inside
    | works first' => exact absurd (Option.some.inj first').symm differs
    | ended gone => exact .ended fun member => gone (List.mem_cons_of_mem _ member)
  · exact Pool.ahead_setThread there (fun earlier before => lined.ended_before first inside before) _

/-- The first in the line is let into the section. -/
theorem enters (there : pool.threads[place]? = some ⟨.ask (.enter key) next, true⟩)
    (first : line.head? = some place) (goesOn : Inside key (next ())) :
    Lined key begun line (pool.step place) ∧ (pool.step place).ahead = pool.ahead
      ∧ (pool.step place).threads[place]? = some ⟨next (), false⟩ := by
  have inside : place < pool.threads.length := (List.getElem?_eq_some_iff.mp there).1
  have holder : pool.sections.holder? key = some place := by
    rw [Mutex.holder?, lined.isLine, first]
  have step : pool.step place = pool.setThread place ⟨next (), false⟩ := by
    rw [Pool.step, there]
    show { pool.setThread place (if pool.sections.holder? key = some place then _ else _) with
      sections := pool.sections } = _
    rw [if_pos holder]
    rfl
  rw [step]
  refine ⟨⟨lined.isLine, lined.rises, lined.started, present_set lined.present, ?_⟩, ?_,
    List.getElem?_set_self inside⟩
  · exact position_set (.works first goesOn) fun other thread _ => lined.position other thread
  · exact Pool.ahead_setThread there (fun earlier before => lined.ended_before first inside before) _

/-- Whoever waits and is not the first goes on waiting. -/
theorem stays (there : pool.threads[place]? = some ⟨.ask (.enter key) next, true⟩)
    (notFirst : line.head? ≠ some place) : pool.step place = pool := by
  have inside : place < pool.threads.length := (List.getElem?_eq_some_iff.mp there).1
  have holder : pool.sections.holder? key ≠ some place := by
    rwa [Mutex.holder?, lined.isLine]
  have same : pool.threads.set place ⟨.ask (.enter key) next, true⟩ = pool.threads := by
    rw [← (List.getElem?_eq_some_iff.mp there).2]
    exact List.set_getElem_self inside
  rw [Pool.step, there]
  show { pool.setThread place (if pool.sections.holder? key = some place then _ else _) with
    sections := pool.sections } = _
  rw [if_neg holder, Pool.setThread, same]

/-- The next one comes to the section. -/
theorem comes (there : pool.threads[begun]? = some ⟨.ask (.enter key) next, false⟩)
    (goesOn : Inside key (next ())) :
    Lined key (begun + 1) (line ++ [begun]) (pool.step begun)
      ∧ (pool.step begun).ahead = pool.ahead := by
  have step : pool.step begun
      = { pool.setThread begun (if (line ++ [begun]).head? = some begun then ⟨next (), false⟩
            else ⟨.ask (.enter key) next, true⟩) with
          sections := pool.sections.enter key begun } := by
    have holder : (pool.sections.enter key begun).holder? key = (line ++ [begun]).head? := by
      rw [Mutex.holder?, Mutex.queue_enter, if_pos rfl, lined.isLine]
    rw [Pool.step, there, ← holder]
    rfl
  have isLine : (pool.sections.enter key begun).queue key = line ++ [begun] := by
    rw [Mutex.queue_enter, if_pos rfl, lined.isLine]
  have rises : (line ++ [begun]).Pairwise (· < ·) :=
    List.pairwise_append.mpr ⟨lined.rises, List.pairwise_singleton _ _, fun other member place isPlace =>
      List.mem_singleton.mp isPlace ▸ lined.started other member⟩
  have started (other : Nat) (member : other ∈ line ++ [begun]) : other < begun + 1 := by
    rcases List.mem_append.mp member with member | member
    · exact Nat.lt_succ_of_lt (lined.started other member)
    · exact List.mem_singleton.mp member ▸ Nat.lt_succ_self begun
  have present (other : Nat) (member : other ∈ line ++ [begun]) : other < pool.threads.length := by
    rcases List.mem_append.mp member with member | member
    · exact lined.present other member
    · exact List.mem_singleton.mp member ▸ (List.getElem?_eq_some_iff.mp there).1
  have others (other : Nat) (thread : Thread α) (differs : other ≠ begun)
      (isThread : pool.threads[other]? = some thread) :
      Position key (begun + 1) (line ++ [begun]) other thread := by
    cases lined.position other thread isThread with
    | fresh late inside => exact .fresh (Nat.lt_of_le_of_ne late (Ne.symm differs)) inside
    | waits member inside => exact .waits (List.mem_append_left _ member) inside
    | works first inside =>
        obtain ⟨rest, rfl⟩ := List.head?_eq_some_iff.mp first
        exact .works rfl inside
    | ended gone =>
        refine .ended fun member => ?_
        rcases List.mem_append.mp member with member | member
        · exact gone member
        · exact differs (List.mem_singleton.mp member)
  rw [step]
  cases line with
  | nil =>
      rw [List.nil_append, List.head?_cons, if_pos rfl]
      refine ⟨⟨isLine, rises, started, present_set present,
        position_set (.works rfl goesOn) others⟩, ?_⟩
      refine Pool.ahead_setThread there (fun earlier before => ?_) _
      exact lined.ended before List.not_mem_nil
        (Nat.lt_trans before (List.getElem?_eq_some_iff.mp there).1)
  | cons first rest =>
      have notFirst : (first :: rest ++ [begun]).head? ≠ some begun := fun isFirst =>
        Nat.ne_of_lt (lined.started first List.mem_cons_self) (Option.some.inj isFirst)
      rw [if_neg notFirst]
      refine ⟨⟨isLine, rises, started, present_set present,
        position_set (.waits (by simp) goesOn) others⟩, ?_⟩
      have same : (pool.threads.set begun ⟨.ask (.enter key) next, true⟩).map Thread.program
          = pool.threads.map Thread.program := by
        obtain ⟨inside, isThread⟩ := List.getElem?_eq_some_iff.mp there
        have inside' : begun < (pool.threads.map Thread.program).length := by
          rwa [List.length_map]
        have isProgram : (pool.threads.map Thread.program)[begun] = .ask (.enter key) next := by
          rw [List.getElem_map, isThread]
        rw [List.map_set, ← isProgram]
        exact List.set_getElem_self inside'
      show oneByOne Machine.run ((pool.threads.set begun _).map Thread.program) pool.machine = _
      rw [same, Pool.ahead]

end

omit lined in
/-- A program that has ended makes no step. -/
theorem ends {result : α} {queued : Bool}
    (there : pool.threads[place]? = some ⟨.done result, queued⟩) : pool.step place = pool := by
  rw [Pool.step, there]

/-- More may have started where the next one has nothing to start with. -/
theorem starts (late : pool.threads[begun]? = none
      ∨ ∃ result, pool.threads[begun]? = some ⟨.done result, false⟩) :
    Lined key (begun + 1) line pool where
  isLine := lined.isLine
  rises := lined.rises
  started other member := Nat.lt_succ_of_lt (lined.started other member)
  present := lined.present
  position other thread there := by
    cases lined.position other thread there with
    | fresh late' inside =>
        refine .fresh (Nat.lt_of_le_of_ne late' ?_) inside
        rintro rfl
        rcases late with missing | ⟨result, isDone⟩
        · cases missing.symm.trans there
        · cases isDone.symm.trans there
    | waits member inside => exact .waits member inside
    | works first inside => exact .works first inside
    | ended gone => exact .ended gone

/-- **One step** of programs in a line, when the next one that starts is the one after those that
have started.  It changes nothing about what is left. -/
theorem step (inOrder : place ≤ begun) :
    ∃ line', Lined key (max begun (place + 1)) line' (pool.step place)
      ∧ (pool.step place).ahead = pool.ahead := by
  by_cases next : place = begun
  · -- The step of the next one to start, if it has anything to start with.
    subst next
    rw [Nat.max_eq_right (Nat.le_succ place)]
    cases there : pool.threads[place]? with
    | none =>
        have same : pool.step place = pool := by rw [Pool.step, there]
        rw [same]
        exact ⟨line, lined.starts (.inl there), rfl⟩
    | some thread =>
        cases lined.position place thread there with
        | fresh late inside => exact ⟨line ++ [place], lined.comes there inside⟩
        | waits member => exact absurd (lined.started place member) (Nat.lt_irrefl place)
        | works first =>
            exact absurd (lined.started place (List.mem_of_head? first)) (Nat.lt_irrefl place)
        | @ended result _ =>
            have same : pool.step place = pool := ends there
            rw [same]
            exact ⟨line, lined.starts (.inr ⟨result, there⟩), rfl⟩
  · have hasStarted : place < begun := Nat.lt_of_le_of_ne inOrder next
    rw [Nat.max_eq_left hasStarted]
    cases there : pool.threads[place]? with
    | none =>
        have same : pool.step place = pool := by rw [Pool.step, there]
        rw [same]
        exact ⟨line, lined, rfl⟩
    | some thread =>
        cases lined.position place thread there with
        | fresh late => exact absurd hasStarted (Nat.not_lt.mpr late)
        | waits member inside =>
            by_cases first : line.head? = some place
            · obtain ⟨goesOn, same, _⟩ := lined.enters there first inside
              exact ⟨line, goesOn, same⟩
            · have same : pool.step place = pool := lined.stays there first
              rw [same]
              exact ⟨line, lined, rfl⟩
        | works first inside =>
            cases inside with
            | asks free goesOn =>
                obtain ⟨goesOn, same, _⟩ := lined.asks there free first goesOn
                exact ⟨line, goesOn, same⟩
            | leaves ends => exact ⟨line.tail, lined.leaves there first ends⟩
        | ended =>
            have same : pool.step place = pool := ends there
            rw [same]
            exact ⟨line, lined, rfl⟩

/-! ## Runs -/

/-- Where all have started, whoever is not the first in the line makes no step. -/
theorem idle (all : pool.threads.length ≤ begun) (notFirst : line.head? ≠ some place) :
    pool.step place = pool := by
  cases there : pool.threads[place]? with
  | none => rw [Pool.step, there]
  | some thread =>
      have inside : place < pool.threads.length := (List.getElem?_eq_some_iff.mp there).1
      cases lined.position place thread there with
      | fresh late => exact absurd (Nat.lt_of_lt_of_le inside all) (Nat.not_lt.mpr late)
      | waits => exact lined.stays there notFirst
      | works first => exact absurd first notFirst
      | ended => exact ends there

end Lined

namespace Pool

/-- A pool at a time, when at each time the program at some place makes a step. -/
def atTime (pool : Pool α) (turns : Nat → Nat) : Nat → Pool α
  | 0 => pool
  | time + 1 => (pool.atTime turns time).step (turns time)

end Pool

/-- The programs at the places below a number start in their order. -/
def StartsInOrder (count : Nat) (turns : Nat → Nat) : Prop :=
  ∀ time, turns time < count → ∀ earlier < turns time, ∃ before < time, turns before = earlier

/-- No program at a place below a number is kept from making steps. -/
def Fair (count : Nat) (turns : Nat → Nat) : Prop :=
  ∀ place < count, ∀ time, ∃ later, time ≤ later ∧ turns later = place

/-- In a round all start in their order. -/
theorem startsInOrder_round (count : Nat) : StartsInOrder count (· % count) := by
  intro time inside earlier before
  have isBefore : earlier < time % count := before
  refine ⟨time - time % count + earlier, ?_, ?_⟩
  · have whole := Nat.mod_le time count
    omega
  · have rounds : time - time % count = count * (time / count) := by
      have split := Nat.mod_add_div time count
      omega
    show (time - time % count + earlier) % count = earlier
    rw [rounds, Nat.mul_add_mod, Nat.mod_eq_of_lt (Nat.lt_trans isBefore inside)]

/-- In a round nobody is kept from making steps. -/
theorem fair_round (count : Nat) : Fair count (· % count) := by
  intro place inside time
  refine ⟨count * time + place, ?_, ?_⟩
  · have rounds := Nat.le_mul_of_pos_left time (Nat.zero_lt_of_lt inside)
    omega
  · exact (Nat.mul_add_mod ..).trans (Nat.mod_eq_of_lt inside)

section

variable {key : Section} {programs : List (Program interface α)} {machine : Machine}
  {turns : Nat → Nat} {pool : Pool α} {begun first time : Nat} {line rest : List Nat}

theorem Pool.atTime_succ_of_eq {place : Nat} (isTurn : turns time = place) :
    pool.atTime turns (time + 1) = (pool.atTime turns time).step place := by
  rw [atTime, isTurn]

theorem Pool.length_step (pool : Pool α) (place : Nat) :
    (pool.step place).threads.length = pool.threads.length := by
  unfold step
  split
  next request next queued there => cases request <;> exact List.length_set
  next => rfl

theorem Pool.length_atTime (pool : Pool α) (turns : Nat → Nat) (time : Nat) :
    (pool.atTime turns time).threads.length = pool.threads.length := by
  induction time with
  | zero => rfl
  | succ time ih => rw [atTime, length_step, ih]

/-- Programs that start in their order stand in a line at every time, and what is left of them leads
to the same end. -/
theorem lined_atTime (visits : ∀ program ∈ programs, Visits key program)
    (inOrder : StartsInOrder programs.length turns) (machine : Machine) (time : Nat) :
    ∃ begun line, Lined key begun line ((Pool.start programs machine).atTime turns time)
      ∧ ((Pool.start programs machine).atTime turns time).ahead
        = oneByOne Machine.run programs machine
      ∧ ∀ before < time, turns before < programs.length → turns before < begun := by
  induction time with
  | zero =>
      refine ⟨0, [], .start visits machine, ?_, fun _ before => absurd before (Nat.not_lt_zero _)⟩
      rw [Pool.atTime, Pool.ahead, Pool.start, List.map_map]
      exact congrArg (oneByOne Machine.run · machine) (List.map_id programs)
  | succ time ih =>
      obtain ⟨begun, line, lined, same, counted⟩ := ih
      rw [Pool.atTime]
      by_cases outside : programs.length ≤ turns time
      · have missing : ((Pool.start programs machine).atTime turns time).threads[turns time]? = none := by
          rw [List.getElem?_eq_none_iff, Pool.length_atTime, Pool.start, List.length_map]
          exact outside
        rw [Pool.step, missing]
        refine ⟨begun, line, lined, same, fun before isBefore inside => ?_⟩
        rcases Nat.lt_succ_iff_lt_or_eq.mp isBefore with isBefore | rfl
        · exact counted before isBefore inside
        · exact absurd inside (Nat.not_lt.mpr outside)
      · have inside : turns time < programs.length := Nat.not_le.mp outside
        have next : turns time ≤ begun := by
          by_contra late
          obtain ⟨before, isBefore, isTurn⟩ := inOrder time inside begun (Nat.not_le.mp late)
          have started := counted before isBefore (by omega)
          exact absurd isTurn (Nat.ne_of_lt started)
        obtain ⟨line', lined', goesOn⟩ := lined.step next
        refine ⟨_, line', lined', goesOn.trans same, fun before isBefore inside => ?_⟩
        rcases Nat.lt_succ_iff_lt_or_eq.mp isBefore with isBefore | rfl
        · exact Nat.lt_of_lt_of_le (counted before isBefore inside) (Nat.le_max_left _ _)
        · exact Nat.lt_of_lt_of_le (Nat.lt_succ_self _) (Nat.le_max_right _ _)

/-- **When all have ended**, they have come to what they come to one after another. -/
theorem Pool.ends_in_order (visits : ∀ program ∈ programs, Visits key program)
    (inOrder : StartsInOrder programs.length turns) {results : List α}
    (ended : ((start programs machine).atTime turns time).results? = some results) :
    (results, ((start programs machine).atTime turns time).machine)
      = oneByOne Machine.run programs machine := by
  obtain ⟨_, _, _, same, _⟩ := lined_atTime visits inOrder machine time
  rw [← same, ahead_of_results ended]

/-- The first in the line makes its next step from the pool as it is. -/
theorem Lined.turn_of_first (lined : Lined key begun (first :: rest) (pool.atTime turns time))
    (all : pool.threads.length ≤ begun) (fair : Fair pool.threads.length turns) :
    ∃ later, time ≤ later ∧ turns later = first
      ∧ pool.atTime turns later = pool.atTime turns time := by
  have inside : first < pool.threads.length := by
    have present := lined.present first List.mem_cons_self
    rwa [Pool.length_atTime] at present
  obtain ⟨later, isLater, isTurn⟩ := fair first inside time
  obtain ⟨wait, rfl⟩ := Nat.exists_eq_add_of_le isLater
  -- By induction on how long it takes until it is the turn of the first one.
  induction wait generalizing time with
  | zero => exact ⟨time, Nat.le_refl _, isTurn, rfl⟩
  | succ wait ih =>
      by_cases now : turns time = first
      · exact ⟨time, Nat.le_refl _, now, rfl⟩
      · have same : pool.atTime turns (time + 1) = pool.atTime turns time := by
          refine lined.idle (by rwa [Pool.length_atTime]) ?_
          intro isFirst
          exact now (Option.some.inj isFirst).symm
        obtain ⟨later, isLater, isTurn, same'⟩ := ih (same ▸ lined)
          (Nat.le_add_right _ _) (by rwa [Nat.add_right_comm, Nat.add_assoc])
        exact ⟨later, Nat.le_of_succ_le isLater, isTurn, same'.trans same⟩

/-- The first in the line leaves it when it works. -/
theorem Inside.gone {program : Program interface α} (inside : Inside key program)
    (fair : Fair pool.threads.length turns) (all : pool.threads.length ≤ begun)
    (lined : Lined key begun (first :: rest) (pool.atTime turns time))
    (there : (pool.atTime turns time).threads[first]? = some ⟨program, false⟩) :
    ∃ later, time ≤ later ∧ Lined key begun rest (pool.atTime turns later) := by
  induction inside generalizing time with
  | asks free goesOn ih =>
      obtain ⟨later, isLater, isTurn, same⟩ := lined.turn_of_first all fair
      rw [← same] at lined there
      obtain ⟨lined', _, there'⟩ := lined.asks there free rfl goesOn
      rw [← Pool.atTime_succ_of_eq isTurn] at lined' there'
      obtain ⟨last, isLast, gone⟩ := ih _ lined' there'
      exact ⟨last, Nat.le_of_succ_le (Nat.le_trans (Nat.succ_le_succ isLater) isLast), gone⟩
  | leaves ends =>
      obtain ⟨later, isLater, isTurn, same⟩ := lined.turn_of_first all fair
      rw [← same] at lined there
      refine ⟨later + 1, Nat.le_succ_of_le isLater, ?_⟩
      rw [Pool.atTime_succ_of_eq isTurn]
      exact (lined.leaves there rfl ends).1

/-- A line of programs that have all started comes to its end. -/
theorem Lined.empties (fair : Fair pool.threads.length turns) (all : pool.threads.length ≤ begun)
    (lined : Lined key begun line (pool.atTime turns time)) :
    ∃ later, time ≤ later ∧ Lined key begun [] (pool.atTime turns later) := by
  induction line generalizing time with
  | nil => exact ⟨time, Nat.le_refl _, lined⟩
  | cons first rest ih =>
      have present := lined.present first List.mem_cons_self
      have there := List.getElem?_eq_getElem present
      generalize (pool.atTime turns time).threads[first] = thread at there
      obtain ⟨later, isLater, lined'⟩ :
          ∃ later, time ≤ later ∧ Lined key begun rest (pool.atTime turns later) := by
        cases lined.position first thread there with
        | fresh late =>
            exact absurd (lined.started first List.mem_cons_self) (Nat.not_lt.mpr late)
        | waits member inside =>
            obtain ⟨later, isLater, isTurn, same⟩ := lined.turn_of_first all fair
            rw [← same] at lined there
            obtain ⟨lined', _, there'⟩ := lined.enters there rfl inside
            rw [← Pool.atTime_succ_of_eq isTurn] at lined' there'
            obtain ⟨last, isLast, gone⟩ := inside.gone fair all lined' there'
            exact ⟨last, Nat.le_of_succ_le (Nat.le_trans (Nat.succ_le_succ isLater) isLast), gone⟩
        | works _ inside => exact inside.gone fair all lined there
        | ended gone => exact absurd List.mem_cons_self gone
      obtain ⟨last, isLast, lined''⟩ := ih lined'
      exact ⟨last, Nat.le_trans isLater isLast, lined''⟩

/-- When all have started and nobody is in the line any more, nothing happens. -/
theorem Lined.rests (empty : Lined key begun [] (pool.atTime turns time))
    (all : pool.threads.length ≤ begun) (later : Nat) :
    pool.atTime turns (time + later) = pool.atTime turns time := by
  induction later with
  | zero => rfl
  | succ later ih =>
      rw [Nat.add_succ, Pool.atTime, ih]
      exact empty.idle (by rwa [Pool.length_atTime]) (by simp)

/-- There is a time when all have started. -/
theorem Fair.all_started {count : Nat} (fair : Fair count turns) (some : Nat) (few : some ≤ count) :
    ∃ time, ∀ place < some, ∃ before < time, turns before = place := by
  induction some with
  | zero => exact ⟨0, fun _ before => absurd before (Nat.not_lt_zero _)⟩
  | succ some ih =>
      obtain ⟨time, started⟩ := ih (Nat.le_of_succ_le few)
      obtain ⟨later, isLater, isTurn⟩ := fair some few time
      refine ⟨later + 1, fun place isPlace => ?_⟩
      rcases Nat.lt_succ_iff_lt_or_eq.mp isPlace with isPlace | rfl
      · obtain ⟨before, isBefore, isTurn⟩ := started place isPlace
        exact ⟨before, by omega, isTurn⟩
      · exact ⟨later, Nat.lt_succ_self later, isTurn⟩

/-- **All end** that start in their order and are not kept from making steps. -/
theorem Pool.all_end (visits : ∀ program ∈ programs, Visits key program)
    (inOrder : StartsInOrder programs.length turns) (fair : Fair programs.length turns)
    (machine : Machine) :
    ∃ time, ∀ later, time ≤ later →
      ((start programs machine).atTime turns later).results?
          = some (oneByOne Machine.run programs machine).1
        ∧ ((start programs machine).atTime turns later).machine
          = (oneByOne Machine.run programs machine).2 := by
  have length : (start programs machine).threads.length = programs.length := by
    rw [start, List.length_map]
  obtain ⟨now, all⟩ := fair.all_started programs.length (Nat.le_refl _)
  obtain ⟨begun, line, lined, _, counted⟩ := lined_atTime visits inOrder machine now
  have started : (start programs machine).threads.length ≤ begun := by
    by_contra late
    obtain ⟨before, isBefore, isTurn⟩ := all begun (length ▸ Nat.not_le.mp late)
    exact absurd isTurn (Nat.ne_of_lt (counted before isBefore (isTurn ▸ length ▸ Nat.not_le.mp late)))
  obtain ⟨last, _, empty⟩ := lined.empties (length ▸ fair) started
  have ended : ((start programs machine).atTime turns last).results?.isSome := by
    apply isSome_results?
    intro thread member
    obtain ⟨place, isPlace⟩ := List.mem_iff_getElem?.mp member
    have inside := (List.getElem?_eq_some_iff.mp isPlace).1
    obtain ⟨result, isDone⟩ := empty.ended
      (Nat.lt_of_lt_of_le (length_atTime .. ▸ inside) started) List.not_mem_nil inside
    rw [program?, isPlace] at isDone
    exact ⟨result, Option.some.inj isDone⟩
  obtain ⟨results, areResults⟩ := Option.isSome_iff_exists.mp ended
  refine ⟨last, fun later isLater => ?_⟩
  obtain ⟨since, rfl⟩ := Nat.exists_eq_add_of_le isLater
  rw [empty.rests started, ← ends_in_order visits inOrder areResults]
  exact ⟨areResults, rfl⟩

end

end DocStore.Host
