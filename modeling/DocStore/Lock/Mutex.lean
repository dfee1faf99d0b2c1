/-!
# Taking turns

A mutex lets one holder at a time into the section of a key; whoever comes while the section is
taken waits behind those who came before.  The value keeps, for every key in use, the holder
followed by those who wait.  `leave` lets the next one in; a key that nobody uses is forgotten.

`queue_enter` and `queue_leave` say what becomes of the queue of every key.
-/

set_option autoImplicit false

namespace DocStore

/-- Who holds and who waits for the sections of keys. -/
structure Mutex (κ τ : Type) where
  /-- For each key in use, the holder and then those who wait, in the order in which they came. -/
  queues : List (κ × List τ)

namespace Mutex

variable {κ τ : Type} [DecidableEq κ]

/-- The mutex that nobody uses. -/
def empty : Mutex κ τ := ⟨[]⟩

/-- The holder of a key and those who wait for it. -/
def queue (mutex : Mutex κ τ) (key : κ) : List τ :=
  (mutex.queues.lookup key).getD []

/-- The holder of a key. -/
def holder? (mutex : Mutex κ τ) (key : κ) : Option τ :=
  (mutex.queue key).head?

/-- Whether a key has a holder. -/
def isLocked (mutex : Mutex κ τ) (key : κ) : Bool :=
  !(mutex.queue key).isEmpty

/-- The queues without the queue of a key. -/
def without (key : κ) : List (κ × List τ) → List (κ × List τ)
  | [] => []
  | (other, queue) :: rest =>
      if other = key then without key rest else (other, queue) :: without key rest

/-- The mutex with the queue of a key set. -/
def setQueue (mutex : Mutex κ τ) (key : κ) (queue : List τ) : Mutex κ τ :=
  ⟨if queue.isEmpty then without key mutex.queues else (key, queue) :: without key mutex.queues⟩

/-- Come to the section of a key, as its holder or behind those who came before. -/
def enter (mutex : Mutex κ τ) (key : κ) (who : τ) : Mutex κ τ :=
  mutex.setQueue key (mutex.queue key ++ [who])

/-- The holder of a key leaves, and the next one becomes the holder. -/
def leave (mutex : Mutex κ τ) (key : κ) : Mutex κ τ :=
  mutex.setQueue key (mutex.queue key).tail

theorem lookup_without (key wanted : κ) (queues : List (κ × List τ)) :
    (without key queues).lookup wanted
      = if wanted = key then none else queues.lookup wanted := by
  induction queues with
  | nil => simp [without]
  | cons entry rest ih =>
      obtain ⟨other, queue⟩ := entry
      by_cases same : other = key
      · subst same
        by_cases here : wanted = other
        · simpa [without, here] using ih
        · simp [without, here, ih, List.lookup_cons, beq_eq_false_iff_ne.mpr here]
      · by_cases here : wanted = other
        · subst here
          simp [without, same]
        · simp [without, same, ih, List.lookup_cons, beq_eq_false_iff_ne.mpr here]

theorem queue_setQueue (mutex : Mutex κ τ) (key wanted : κ) (queue : List τ) :
    (mutex.setQueue key queue).queue wanted
      = if wanted = key then queue else mutex.queue wanted := by
  by_cases none : queue = []
  · subst none
    by_cases same : wanted = key <;> simp [setQueue, Mutex.queue, lookup_without, same]
  · by_cases same : wanted = key
    · simp [setQueue, Mutex.queue, none, same]
    · simp [setQueue, Mutex.queue, none, lookup_without, same, List.lookup_cons,
        beq_eq_false_iff_ne.mpr same]

theorem queue_enter (mutex : Mutex κ τ) (key wanted : κ) (who : τ) :
    (mutex.enter key who).queue wanted
      = if wanted = key then mutex.queue key ++ [who] else mutex.queue wanted :=
  queue_setQueue mutex key wanted _

theorem queue_leave (mutex : Mutex κ τ) (key wanted : κ) :
    (mutex.leave key).queue wanted
      = if wanted = key then (mutex.queue key).tail else mutex.queue wanted :=
  queue_setQueue mutex key wanted _

end Mutex

end DocStore
