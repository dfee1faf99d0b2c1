import DocStore.CommandLine.Run
import DocStore.Proofs.Host.Run
/-!
# Input that comes in pieces

The input of a process comes in pieces, and reading it stops as soon as too many bytes have come.
How the input is cut does not matter: sizes only grow, so a limit is exceeded by what has come so far
at some piece exactly when it is exceeded by the whole (`collect_cons`).  What comes of reading is
therefore a function of the text alone (`inputText_eq`), and so is the JSON value that a command
takes from it (`eval_readInputJson`).

The size is looked at when a piece comes.  An empty input brings none and is never refused, not even
where less than nothing may be read (`empty_input_below_limit`).  `source_read_whatever_the_pieces`
puts both together for every source of a command.
-/

set_option autoImplicit false

namespace DocStore

/-- What exceeds a number is itself exceeded only by what exceeds it as well. -/
theorem Number.ltNat_mono {value : Number} {size size' : Nat} (le : size ≤ size')
    (exceeds : value.ltNat size = true) : value.ltNat size' = true := by
  cases value with
  | finite negative magnitude =>
      cases negative with
      | false =>
          simp only [ltNat, decide_eq_true_eq] at exceeds ⊢
          exact Nat.lt_of_lt_of_le exceeds (Nat.mul_le_mul_right _ le)
      | true =>
          simp only [ltNat, Bool.or_eq_true, decide_eq_true_eq] at exceeds ⊢
          exact exceeds.imp_left fun positive => Nat.lt_of_lt_of_le positive le
  | infinite negative => exact exceeds
  | undefined => cases exceeds

namespace CommandLine

open Host (Machine ask)

/-! ## Texts in pieces -/

/-- Whether a text is too large to be read.  The empty one never is, since it brings no piece. -/
def IsTooLarge (maxBytes : Number) (text : String) : Prop :=
  text ≠ "" ∧ maxBytes.ltNat text.utf8ByteSize = true

instance (maxBytes : Number) (text : String) : Decidable (IsTooLarge maxBytes text) :=
  inferInstanceAs (Decidable (_ ∧ _))

/-- What comes of reading a text. -/
def readText (maxBytes : Number) (text : String) : Except Failure String :=
  if IsTooLarge maxBytes text then .error (.stated (tooLargeMessage maxBytes)) else .ok text

/-- A text is too large exactly when its size exceeds the limit, unless nothing exceeds it already. -/
theorem isTooLarge_iff {maxBytes : Number} (nonnegative : maxBytes.ltNat 0 = false)
    {text : String} : IsTooLarge maxBytes text ↔ maxBytes.ltNat text.utf8ByteSize = true := by
  refine and_iff_right_of_imp fun exceeds empty => ?_
  rw [empty] at exceeds
  exact Bool.false_ne_true (nonnegative.symm.trans exceeds)

variable {maxBytes : Number}

/-- Once a piece has come, only the size of all pieces together matters. -/
theorem collect_cons (size : Nat) (text piece : String) (pieces : List String) :
    collect maxBytes size text (piece :: pieces)
      = if maxBytes.ltNat (size + (String.join (piece :: pieces)).utf8ByteSize) then
          .error (.stated (tooLargeMessage maxBytes))
        else .ok (text ++ String.join (piece :: pieces)) := by
  induction pieces generalizing size text piece with
  | nil => simp only [collect, String.join_cons, String.join_nil, String.append_empty]
  | cons next pieces ih =>
      have joined : String.join (piece :: next :: pieces) = piece ++ String.join (next :: pieces) :=
        String.join_cons
      have whole : size + (String.join (piece :: next :: pieces)).utf8ByteSize
          = size + piece.utf8ByteSize + (String.join (next :: pieces)).utf8ByteSize := by
        rw [joined, String.utf8ByteSize_append, Nat.add_assoc]
      rw [collect, whole]
      cases exceeds : maxBytes.ltNat (size + piece.utf8ByteSize) with
      | true =>
          have later := Number.ltNat_mono (Nat.le_add_right _
            (String.join (next :: pieces)).utf8ByteSize) exceeds
          rw [if_pos rfl, if_pos later]
      | false =>
          rw [if_neg Bool.false_ne_true, ih, joined, String.append_assoc]

/-- Pieces without text add nothing. -/
theorem join_filter_ne_empty (pieces : List String) :
    String.join (pieces.filter (· != "")) = String.join pieces := by
  induction pieces with
  | nil => rfl
  | cons piece pieces ih =>
      rw [List.filter_cons]
      split
      · rw [String.join_cons, String.join_cons, ih]
      next isEmpty =>
        obtain rfl : piece = "" := by simpa using isEmpty
        rw [ih, String.join_cons, String.empty_append]

/-- **Reading an input** comes to the same however it is cut into pieces. -/
theorem inputText_eq (pieces : List String) :
    inputText maxBytes pieces = readText maxBytes (String.join pieces) := by
  rw [inputText, ← join_filter_ne_empty pieces]
  cases noticed : pieces.filter (· != "") with
  | nil => rfl
  | cons piece rest =>
      have isNoticed : piece ≠ "" := by
        have member : piece ∈ pieces.filter (· != "") := by simp [noticed]
        simpa using (List.mem_filter.mp member).2
      have nonempty : String.join (piece :: rest) ≠ "" := by
        rw [String.join_cons]
        exact fun empty => isNoticed (String.append_eq_empty_iff.mp empty).1
      rw [collect_cons, Nat.zero_add, String.empty_append, readText]
      exact if_congr (and_iff_right nonempty).symm rfl rfl

/-! ## Reading on a machine -/

theorem eval_readInput (maxBytes : Number) (machine : Machine) :
    machine.eval (readInput maxBytes)
      = (readText maxBytes (String.join machine.input), { machine with input := [] }) := by
  have reads : machine.eval (ask .readInput) = (.ok machine.input, { machine with input := [] }) :=
    rfl
  rw [readInput, Machine.eval, Attempt.eval_bind_ok reads, Attempt.eval_ofExcept, inputText_eq]

/-- The JSON value of a text that has been read, if it could be. -/
def jsonOfRead : Except Failure String → Except Failure Json
  | .error failure => .error (.invalidArgument failure.message)
  | .ok text =>
      if isEmptyText text then .error (.invalidArgument "stdin is empty")
      else parseJson "stdin" text

theorem eval_readInputJson {environment : Environment} (piped : environment.isTerminal = false)
    (machine : Machine) :
    machine.eval (readInputJson environment)
      = (jsonOfRead (readText defaultMaxBytes (String.join machine.input)),
          { machine with input := [] }) := by
  have reads : machine.eval (readInput defaultMaxBytes).outcome
      = (.ok (readText defaultMaxBytes (String.join machine.input)),
          { machine with input := [] }) := by
    rw [Machine.eval, Attempt.eval_outcome, ← Machine.eval, eval_readInput]
  rw [readInputJson, if_neg (by rw [piped]; exact Bool.false_ne_true), Machine.eval,
    Attempt.eval_bind_ok reads]
  cases readText defaultMaxBytes (String.join machine.input) with
  | error failure => rfl
  | ok text =>
      simp only [jsonOfRead]
      split <;> rfl

/-- The JSON value of a file is told by the disk. -/
theorem eval_readFile_congr (environment : Environment) (file : String) {machine machine' : Machine}
    (sameDisk : machine.disk = machine'.disk) :
    (machine.eval (readFile environment file)).1 = (machine'.eval (readFile environment file)).1 := by
  rw [readFile, Machine.eval, Machine.eval, Attempt.eval_bind_ofExcept, Attempt.eval_bind_ofExcept,
    ← Machine.eval, ← Machine.eval, Machine.eval_callAs, Machine.eval_callAs, sameDisk]

/-- **What a command takes from its input** is told by the text, however it is cut into pieces. -/
theorem eval_readSource_congr (environment : Environment) (source : Source) (allowInput : Bool)
    {machine machine' : Machine} (sameDisk : machine.disk = machine'.disk)
    (sameText : String.join machine.input = String.join machine'.input) :
    (machine.eval (readSource environment source allowInput)).1
      = (machine'.eval (readSource environment source allowInput)).1 := by
  obtain ⟨_ | file, _ | data⟩ := source
  · cases allowInput with
    | false => rfl
    | true =>
        show (machine.eval (some <$> readInputJson environment)).1
          = (machine'.eval (some <$> readInputJson environment)).1
        rw [Machine.eval, Machine.eval, Attempt.eval_map, Attempt.eval_map]
        refine congrArg (Except.map some) ?_
        cases terminal : environment.isTerminal with
        | true =>
            rw [readInputJson, if_pos terminal]
            rfl
        | false =>
            show (machine.eval _).1 = (machine'.eval _).1
            rw [eval_readInputJson terminal, eval_readInputJson terminal, sameText]
  · rfl
  · show (machine.eval (some <$> readFile environment file)).1
      = (machine'.eval (some <$> readFile environment file)).1
    rw [Machine.eval, Machine.eval, Attempt.eval_map, Attempt.eval_map]
    exact congrArg (Except.map some) (eval_readFile_congr environment file sameDisk)
  · rfl

/-- **Reading is told by the text alone.**  However a text is cut into pieces, reading it is refused
for its size exactly when it is not empty and its bytes exceed the limit, whatever number that is, and
gives the whole text otherwise.  A limit that zero does not exceed is kept by just the texts whose
bytes do not exceed it.  What a command takes from its input, or why it refuses it, is the same for
all ways to cut the text. -/
theorem source_read_whatever_the_pieces (machine : Machine) {pieces pieces' : List String}
    (same : String.join pieces = String.join pieces') :
    (∀ maxBytes : Number,
      (({ machine with input := pieces } : Machine).eval (readInput maxBytes)).1
        = if IsTooLarge maxBytes (String.join pieces) then
            .error (.stated (tooLargeMessage maxBytes))
          else .ok (String.join pieces))
      ∧ (∀ maxBytes : Number, maxBytes.ltNat 0 = false →
        ((({ machine with input := pieces } : Machine).eval (readInput maxBytes)).1
            = .ok (String.join pieces)
          ↔ maxBytes.ltNat (String.join pieces).utf8ByteSize = false))
      ∧ (∀ maxBytes : Number,
        (({ machine with input := pieces } : Machine).eval (readInput maxBytes)).1
          = (({ machine with input := pieces' } : Machine).eval (readInput maxBytes)).1)
      ∧ ∀ (environment : Environment) (source : Source) (allowInput : Bool),
        (({ machine with input := pieces } : Machine).eval
            (readSource environment source allowInput)).1
          = (({ machine with input := pieces' } : Machine).eval
            (readSource environment source allowInput)).1 := by
  refine ⟨fun maxBytes => ?_, fun maxBytes nonnegative => ?_, fun maxBytes => ?_,
    fun environment source allowInput => eval_readSource_congr environment source allowInput rfl same⟩
  · rw [eval_readInput]
    rfl
  · rw [eval_readInput, ← Bool.not_eq_true, ← isTooLarge_iff nonnegative]
    show readText maxBytes (String.join pieces) = _ ↔ _
    unfold readText
    split
    next tooLarge => exact iff_of_false nofun (not_not_intro tooLarge)
    next fits => exact iff_of_true rfl fits
  · rw [eval_readInput, eval_readInput, same]

/-- A text of characters of two bytes each is cut in two ways; it keeps to a limit of as many bytes,
and not to one of a byte less. -/
theorem wide_characters_cut_twice :
    String.join ["\"é", "ü\""] = String.join ["\"", "", "éü\""]
      ∧ (({ Machine.start with input := ["\"é", "ü\""] } : Machine).eval
          (readInput (.ofNat 6))).1 = .ok "\"éü\""
      ∧ (({ Machine.start with input := ["\"", "", "éü\""] } : Machine).eval
          (readInput (.ofNat 5))).1 = .error (.stated (tooLargeMessage (.ofNat 5)))
      ∧ ∀ environment : Environment,
        (({ Machine.start with input := ["\"é", "ü\""] } : Machine).eval
            (readSource environment ⟨none, none⟩ true)).1
          = (({ Machine.start with input := ["\"", "", "éü\""] } : Machine).eval
            (readSource environment ⟨none, none⟩ true)).1 := by
  have same : String.join ["\"é", "ü\""] = String.join ["\"", "", "éü\""] := by decide
  obtain ⟨reads, keeps, alike, commands⟩ := source_read_whatever_the_pieces Machine.start same
  have tooLarge : IsTooLarge (.ofNat 5) (String.join ["\"é", "ü\""]) := by decide +kernel
  refine ⟨same, (keeps (.ofNat 6) (by decide +kernel)).mpr (by decide +kernel), ?_,
    fun environment => commands environment ⟨none, none⟩ true⟩
  rw [← alike, reads, if_pos tooLarge]

/-- **An empty input is never refused**, although its size exceeds a limit below zero; and what is no
number is no limit, although nothing is at most what is no number. -/
theorem empty_input_below_limit :
    (Number.ltNat (.ofInt (-1)) "".utf8ByteSize = true
        ∧ (({ Machine.start with input := [] } : Machine).eval (readInput (.ofInt (-1)))).1 = .ok "")
      ∧ ((Number.ofNat "a".utf8ByteSize).lt .undefined = false
        ∧ (Number.ofNat "a".utf8ByteSize).same .undefined = false
        ∧ (({ Machine.start with input := ["a"] } : Machine).eval (readInput .undefined)).1
          = .ok "a") := by
  refine ⟨⟨by decide +kernel, rfl⟩, by decide +kernel, by decide +kernel, ?_⟩
  have joined : String.join ["a"] = "a" := by decide
  have fits : ¬ IsTooLarge .undefined "a" := nofun
  rw [eval_readInput, joined, readText, if_neg fits]

end CommandLine

end DocStore
