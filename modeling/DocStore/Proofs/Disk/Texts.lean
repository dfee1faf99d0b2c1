import DocStore.Proofs.Disk.Path
/-!
# Texts of paths

A text is divided at its solidi, and the parts put together with solidi are the text again
(`split_append_text`, `split_text`).  So a path is told by its text, as long as no component holds a
solidus (`eq_of_text_eq`).

Making a text normal first changes nothing about what it names: wherever a text starts, the path that
it is resolved to is that of its normal text (`resolve_normalText`).  A text that does not start at the
top keeps the double points at its start, which go up from the working directory later on
(`foldl_push_foldl_pushLoose`).  Joined to a directory, a text therefore names the path below what the
directory names (`resolve_join`).
-/

set_option autoImplicit false

namespace DocStore.Disk.Path

/-! ## Parts of a text -/

theorem splitChars_ne_nil (characters : List Char) : splitChars characters ≠ [] := by
  cases characters with
  | nil => exact List.cons_ne_nil _ _
  | cons character rest =>
      unfold splitChars
      split
      · exact List.cons_ne_nil _ _
      · split <;> exact List.cons_ne_nil _ _

theorem splitChars_append (first second : List Char) :
    splitChars (first ++ '/' :: second) = splitChars first ++ splitChars second := by
  induction first with
  | nil => rfl
  | cons character rest ih =>
      rw [List.cons_append, splitChars, splitChars, ih]
      split
      · rfl
      · obtain ⟨part, parts, isSplit⟩ := List.exists_cons_of_ne_nil (splitChars_ne_nil rest)
        rw [isSplit]
        rfl

theorem not_mem_of_mem_splitChars {characters part : List Char}
    (isPart : part ∈ splitChars characters) : '/' ∉ part := by
  induction characters generalizing part with
  | nil =>
      rw [splitChars, List.mem_singleton] at isPart
      rw [isPart]
      exact List.not_mem_nil
  | cons character rest ih =>
      obtain ⟨first, others, isSplit⟩ := List.exists_cons_of_ne_nil (splitChars_ne_nil rest)
      rw [splitChars, isSplit] at isPart
      rw [isSplit] at ih
      split at isPart
      · rcases List.mem_cons.mp isPart with rfl | later
        · exact List.not_mem_nil
        · exact ih later
      next other =>
        rcases List.mem_cons.mp isPart with rfl | later
        · rw [List.mem_cons, not_or]
          exact ⟨fun same => other same.symm, ih List.mem_cons_self⟩
        · exact ih (List.mem_cons_of_mem _ later)

/-- A text is split where two texts are put together with a solidus. -/
theorem split_append (first second : String) :
    split (first ++ "/" ++ second) = split first ++ split second := by
  have characters : (first ++ "/" ++ second).toList = first.toList ++ '/' :: second.toList := by
    simp
  rw [split, characters, splitChars_append, List.map_append, split, split]

/-- A component holds no solidus. -/
def Undivided (path : Path) : Prop := ∀ component ∈ path, '/' ∉ component.toList

theorem undivided_split (text : String) : Undivided (split text) := by
  intro component isPart
  obtain ⟨characters, inSplit, rfl⟩ := List.mem_map.mp isPart
  rw [String.toList_ofList]
  exact not_mem_of_mem_splitChars inSplit

/-- What is written behind a text adds its components to the parts of the text. -/
theorem split_append_text (front : String) {path : Path} (undivided : Undivided path) :
    split (front ++ path.text) = split front ++ path := by
  induction path generalizing front with
  | nil => rw [text, List.map_nil, String.join_nil, String.append_empty, List.append_nil]
  | cons component path ih =>
      have here := undivided component List.mem_cons_self
      have parts := ih (front ++ "/" ++ component) fun other member =>
        undivided other (List.mem_cons_of_mem _ member)
      rw [split_append, split_of_not_mem here, List.append_assoc, List.singleton_append] at parts
      rw [text_cons, ← parts]
      simp only [String.append_assoc]

/-- A path is read back from its text. -/
theorem split_text {path : Path} (undivided : Undivided path) : split path.text = "" :: path := by
  have parts := split_append_text "" undivided
  rwa [String.empty_append] at parts

/-- **Paths are told by their texts.** -/
theorem eq_of_text_eq {path path' : Path} (undivided : Undivided path)
    (undivided' : Undivided path') (same : path.text = path'.text) : path = path' := by
  have parts : split path.text = split path'.text := congrArg split same
  rw [split_text undivided, split_text undivided'] at parts
  exact (List.cons.inj parts).2

theorem intercalate_cons (component : String) (path : Path) :
    String.intercalate "/" (component :: path) = component ++ path.text := by
  induction path generalizing component with
  | nil => simp [text]
  | cons next path ih =>
      rw [String.intercalate_cons_cons, ih, text_cons]
      simp only [String.append_assoc]

/-! ## Normal texts -/

@[simp] theorem push_empty (reversed : Path) : push reversed "" = reversed := if_pos (.inl rfl)

theorem push_of_meaningful (reversed : Path) {name : String}
    (meaningful : name ≠ "" ∧ name ≠ "." ∧ name ≠ "..") : push reversed name = name :: reversed := by
  obtain ⟨nonempty, notHere, notAbove⟩ := meaningful
  rw [push, if_neg (not_or.mpr ⟨nonempty, notHere⟩), if_neg notAbove]

/-- What a path comes to depends on what it begins with only through what that comes to. -/
theorem normalize_normalize_append (path rest : Path) :
    normalize (normalize path ++ rest) = normalize (path ++ rest) := by
  have again : (normalize path).foldl push [] = path.foldl push [] := by
    rw [foldl_push_of_meaningful [] (meaningful_normalize path), List.append_nil, normalize,
      List.reverse_reverse]
  rw [normalize, List.foldl_append, again, ← List.foldl_append, ← normalize]

theorem normalize_orTop_append (path rest : Path) :
    normalize (orTop path ++ rest) = normalize (path ++ rest) := by
  unfold orTop
  split
  next empty =>
    rw [empty]
    rfl
  · rfl

/-- What is pushed is seen. -/
theorem mem_pushLoose {reversed : Path} {component name : String}
    (member : name ∈ pushLoose reversed component) :
    name ∈ reversed ∨ name = component ∧ name ≠ "" ∧ name ≠ "." := by
  unfold pushLoose at member
  split at member
  next isUp =>
    have pushed : name = ".." → name = component ∧ name ≠ "" ∧ name ≠ "." := by
      rintro rfl
      exact ⟨isUp.symm, by decide, by decide⟩
    split at member
    · exact .inr (pushed (List.mem_singleton.mp member))
    · split at member
      · exact (List.mem_cons.mp member).symm.imp_right pushed
      · exact .inl (List.mem_cons_of_mem _ member)
  next notUp =>
    by_cases blank : component = "" ∨ component = "."
    · rw [push, if_pos blank] at member
      exact .inl member
    · obtain ⟨nonempty, notHere⟩ := not_or.mp blank
      rw [push_of_meaningful reversed ⟨nonempty, notHere, notUp⟩] at member
      refine (List.mem_cons.mp member).symm.imp_right ?_
      rintro rfl
      exact ⟨rfl, nonempty, notHere⟩

theorem mem_foldl_pushLoose {path reversed : Path} {name : String}
    (member : name ∈ path.foldl pushLoose reversed) :
    name ∈ reversed ∨ name ∈ path ∧ name ≠ "" ∧ name ≠ "." := by
  induction path generalizing reversed with
  | nil => exact .inl member
  | cons component path ih =>
      rcases ih member with pushed | ⟨later, seen⟩
      · refine (mem_pushLoose pushed).imp_right ?_
        rintro ⟨rfl, seen⟩
        exact ⟨List.mem_cons_self, seen⟩
      · exact .inr ⟨List.mem_cons_of_mem _ later, seen⟩

/-- Following what a path comes to that starts anywhere is following the path. -/
theorem foldl_push_pushLoose {reversed : Path} (seen : ∀ name ∈ reversed, name ≠ "" ∧ name ≠ ".")
    (component : String) (stack : Path) :
    (pushLoose reversed component).reverse.foldl push stack
      = push (reversed.reverse.foldl push stack) component := by
  unfold pushLoose
  split
  next isUp =>
    subst isUp
    cases reversed with
    | nil => rfl
    | cons last above =>
        dsimp only
        split
        · rw [List.reverse_cons, List.foldl_append]
          rfl
        next notUp =>
          -- the double points take back the name before them
          obtain ⟨nonempty, notHere⟩ := seen last List.mem_cons_self
          rw [List.reverse_cons, List.foldl_append, List.foldl_cons, List.foldl_nil,
            push_of_meaningful _ ⟨nonempty, notHere, notUp⟩]
          rfl
  next notUp =>
    by_cases blank : component = "" ∨ component = "."
    · rw [push, push, if_pos blank, if_pos blank]
    · obtain ⟨nonempty, notHere⟩ := not_or.mp blank
      have meaningful := And.intro nonempty (And.intro notHere notUp)
      rw [push_of_meaningful reversed meaningful, List.reverse_cons, List.foldl_append,
        List.foldl_cons, List.foldl_nil]

theorem foldl_push_foldl_pushLoose {reversed : Path}
    (seen : ∀ name ∈ reversed, name ≠ "" ∧ name ≠ ".") (path stack : Path) :
    (path.foldl pushLoose reversed).reverse.foldl push stack
      = path.foldl push (reversed.reverse.foldl push stack) := by
  induction path generalizing reversed with
  | nil => rfl
  | cons component path ih =>
      have seen' : ∀ name ∈ pushLoose reversed component, name ≠ "" ∧ name ≠ "." :=
        fun name member => (mem_pushLoose member).elim (seen name) And.right
      rw [List.foldl_cons, ih seen', foldl_push_pushLoose seen, List.foldl_cons]

/-! ## What texts name -/

theorem exists_split_of_isAbsolute {text : String} (absolute : isAbsolute text = true) :
    ∃ path, split text = "" :: path := by
  rw [isAbsolute, beq_iff_eq, List.head?_eq_some_iff] at absolute
  obtain ⟨rest, starts⟩ := absolute
  rw [split, starts, splitChars, if_pos rfl]
  exact ⟨_, rfl⟩

/-- The solidus that a normal text may end with. -/
theorem ending_eq_text (ends : Prop) [Decidable ends] :
    (if ends then "/" else "") = text (if ends then [""] else []) := by
  split <;> rfl

theorem undivided_ending (ends : Prop) [Decidable ends] : Undivided (if ends then [""] else []) := by
  split
  · intro component isEnd
    rw [List.mem_singleton.mp isEnd]
    exact List.not_mem_nil
  · exact nofun

theorem foldl_push_ending (ends : Prop) [Decidable ends] (stack : Path) :
    (if ends then [""] else []).foldl push stack = stack := by
  split
  · exact push_empty stack
  · rfl

/-- A text that starts at the top names the same wherever it is resolved. -/
theorem normalize_components_of_isAbsolute {text : String} (absolute : isAbsolute text = true)
    (workingDirectory : Path) :
    normalize (components workingDirectory text) = normalize (split text) := by
  obtain ⟨path, isSplit⟩ := exists_split_of_isAbsolute absolute
  rw [components, if_pos absolute, isSplit]
  rfl

theorem components_text {path : Path} (nonempty : path ≠ []) (undivided : Undivided path)
    (workingDirectory : Path) : components workingDirectory path.text = path := by
  obtain ⟨name, rest, rfl⟩ := List.exists_cons_of_ne_nil nonempty
  have absolute : isAbsolute (text (name :: rest)) = true := by
    rw [isAbsolute, text_cons]
    simp
  rw [components, if_pos absolute, split_text undivided, List.drop_one, List.tail_cons]

/-- A text that starts with a name starts anywhere. -/
theorem components_append_text {name : String} (nonempty : name ≠ "") {path : Path}
    (undivided : Undivided (name :: path)) (workingDirectory : Path) :
    components workingDirectory (name ++ path.text) = workingDirectory ++ name :: path := by
  have here := undivided name List.mem_cons_self
  have loose : isAbsolute (name ++ path.text) = false := by
    obtain ⟨first, others, isName⟩ := List.exists_cons_of_ne_nil
      (fun empty => nonempty (String.toList_eq_nil_iff.mp empty))
    rw [isName] at here
    rw [isAbsolute, String.toList_append, isName]
    simpa using fun same => here (by simp [same])
  rw [components, if_neg (by simp [loose]), split_append_text name fun other member =>
    undivided other (List.mem_cons_of_mem _ member), split_of_not_mem here, List.singleton_append]

theorem mem_foldl_push {path reversed : Path} {name : String}
    (member : name ∈ path.foldl push reversed) : name ∈ reversed ∨ name ∈ path := by
  induction path generalizing reversed with
  | nil => exact .inl member
  | cons component path ih =>
      rcases ih member with pushed | later
      · unfold push at pushed
        split at pushed
        · exact .inl pushed
        · split at pushed
          · exact .inl (List.mem_of_mem_drop pushed)
          · exact (List.mem_cons.mp pushed).symm.imp_right fun same => by simp [same]
      · exact .inr (List.mem_cons_of_mem _ later)

theorem Undivided.normalize {path : Path} (undivided : Undivided path) :
    Undivided (normalize path) := by
  intro name member
  rcases mem_foldl_push (List.mem_reverse.mp member) with nothing | inPath
  · exact absurd nothing List.not_mem_nil
  · exact undivided name inPath

theorem Undivided.append {path rest : Path} (undivided : Undivided path)
    (undivided' : Undivided rest) : Undivided (path ++ rest) := fun name member =>
  (List.mem_append.mp member).elim (undivided name) (undivided' name)

section

variable {ending : Path} (undivided : Undivided ending)
  (blank : ∀ stack : Path, ending.foldl push stack = stack)
include undivided blank

theorem normalize_components_text {path : Path} (nonempty : path ≠ []) (inside : Undivided path)
    (meaningful : ∀ name ∈ path, name ≠ "" ∧ name ≠ "." ∧ name ≠ "..") (workingDirectory : Path) :
    normalize (components workingDirectory (path.text ++ ending.text)) = path := by
  have whole : path ++ ending ≠ [] := fun empty => nonempty (List.append_eq_nil_iff.mp empty).1
  rw [← text_append, components_text whole (inside.append undivided), normalize,
    List.foldl_append, blank, ← normalize, normalize_of_meaningful meaningful]

theorem normalize_components_looseText {path : Path} (inside : Undivided path)
    (seen : ∀ name ∈ path, name ≠ "" ∧ name ≠ ".") (workingDirectory : Path) :
    normalize (components workingDirectory (looseText path ++ ending.text))
      = normalize (workingDirectory ++ path) := by
  cases path with
  | nil =>
      have here : Undivided ("." :: ending) := by
        intro name member
        rcases List.mem_cons.mp member with rfl | isEnd
        · decide
        · exact undivided name isEnd
      rw [looseText, if_pos rfl, components_append_text (by decide) here, normalize,
        List.foldl_append, List.foldl_cons, blank, List.append_nil]
      rfl
  | cons name path =>
      have whole : Undivided (name :: (path ++ ending)) := inside.append undivided
      rw [looseText, if_neg (List.cons_ne_nil _ _), intercalate_cons, String.append_assoc,
        ← text_append, components_append_text (seen name List.mem_cons_self).1 whole,
        ← List.cons_append, ← List.append_assoc, normalize, List.foldl_append, blank, ← normalize]

end

/-- **A text and its normal text name the same**, wherever they start. -/
theorem resolve_normalText (workingDirectory : Path) (text : String) :
    resolve workingDirectory (normalText text) = resolve workingDirectory text := by
  have undivided := undivided_ending (text.toList.getLast? = some '/')
  have blank := foldl_push_ending (text.toList.getLast? = some '/')
  have parts := undivided_split text
  refine congrArg orTop ?_
  unfold normalText
  rw [ending_eq_text]
  dsimp only
  split
  next absolute =>
    rw [normalize_components_of_isAbsolute absolute]
    split
    next top =>
      rw [top, components, if_pos (by decide)]
      decide
    next path isPath =>
      exact normalize_components_text undivided blank isPath parts.normalize
        (meaningful_normalize _) workingDirectory
  next loose =>
    have seen (name : String) (member : name ∈ ((split text).foldl pushLoose []).reverse) :=
      (mem_foldl_pushLoose (List.mem_reverse.mp member)).resolve_left List.not_mem_nil
    rw [normalize_components_looseText undivided blank
        (fun name member => parts name (seen name member).1) (fun name member => (seen name member).2),
      components, if_neg loose, normalize, normalize, List.foldl_append, List.foldl_append,
      foldl_push_foldl_pushLoose (List.forall_mem_nil _)]
    rfl

/-- The path that a text names below a directory, without a solidus at its end. -/
def follow (directory : Path) (text : String) : Path :=
  orTop (normalize (directory ++ split text))

/-- **A text joined to a directory** names the path of the text below what the directory names. -/
theorem resolve_join {directory : String} (nonempty : directory ≠ "") (workingDirectory : Path)
    (text : String) :
    resolve workingDirectory (join directory text)
      = follow (resolve workingDirectory directory) text := by
  have same : follow (resolve workingDirectory directory) text
      = orTop (normalize (components workingDirectory directory ++ split text)) := by
    rw [follow, resolve, normalize_orTop_append, normalize_normalize_append]
  rw [same, join, if_neg nonempty]
  split
  next empty =>
    rw [empty, resolve_normalText, resolve, normalize, normalize, List.foldl_append]
    rfl
  next =>
    obtain ⟨first, others, isDirectory⟩ := List.exists_cons_of_ne_nil
      (fun empty => nonempty (String.toList_eq_nil_iff.mp empty))
    have starts : isAbsolute (directory ++ "/" ++ text) = isAbsolute directory := by
      simp [isAbsolute, isDirectory]
    have parts : components workingDirectory (directory ++ "/" ++ text)
        = components workingDirectory directory ++ split text := by
      unfold components
      rw [starts, split_append]
      split
      next absolute =>
        obtain ⟨path, isSplit⟩ := exists_split_of_isAbsolute absolute
        rw [isSplit]
        rfl
      next => rw [List.append_assoc]
    rw [resolve_normalText, resolve, parts]

theorem Undivided.orTop {path : Path} (undivided : Undivided path) : Undivided (orTop path) := by
  unfold Path.orTop
  split
  · intro name isTop
    rw [List.mem_singleton.mp isTop]
    exact List.not_mem_nil
  · exact undivided

theorem Undivided.resolve {workingDirectory : Path} (undivided : Undivided workingDirectory)
    (text : String) : Undivided (resolve workingDirectory text) := by
  have parts := undivided_split text
  refine Undivided.orTop (Undivided.normalize ?_)
  unfold components
  split
  · exact fun name member => parts name (List.mem_of_mem_drop member)
  · exact undivided.append parts

end DocStore.Disk.Path
