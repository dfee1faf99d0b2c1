import DocStore.Json.Reader
import DocStore.Proofs.Json.WellFormed
import DocStore.Proofs.Number.RoundTrip
/-!
# Written values are read back

The text of a well-formed value that lists its keys as objects do is read as the value, up to the
signs of its zeros, whatever blanks the layout puts between its parts (`readBack_of_wellFormed`).  Every
layout of a number of spaces is such a layout (`Layout.blank_ofNumber`).  So reading a canonical
text gives the arranged value (`parse?_canonicalText`).
-/

set_option autoImplicit false

namespace DocStore

/-! ## The signs of zeros -/

/-- The scalar without the sign of a zero. -/
def Scalar.unsigned : Scalar → Scalar
  | .number value => .number value.unsigned
  | value => value

namespace Json

mutual
/-- The value without the signs of its zeros. -/
def unsigned : Tree Scalar → Tree Scalar
  | .leaf value => .leaf value.unsigned
  | .array items => .array (unsignedItems items)
  | .object fields => .object (unsignedFields fields)

/-- The items without the signs of their zeros. -/
def unsignedItems : List (Tree Scalar) → List (Tree Scalar)
  | [] => []
  | item :: rest => unsigned item :: unsignedItems rest

/-- The fields without the signs of their zeros. -/
def unsignedFields : List (String × Tree Scalar) → List (String × Tree Scalar)
  | [] => []
  | (key, value) :: rest => (key, unsigned value) :: unsignedFields rest
end

theorem unsignedItems_eq_map (items : List Json) : unsignedItems items = items.map unsigned := by
  induction items with
  | nil => rfl
  | cons item rest ih => simp [unsignedItems, ih]

theorem unsignedFields_eq_map (fields : List (String × Json)) :
    unsignedFields fields = fields.map fun field => (field.1, unsigned field.2) := by
  induction fields with
  | nil => rfl
  | cons field rest ih => simp [unsignedFields, ih]

@[simp] theorem unsigned_leaf (value : Scalar) :
    unsigned (.leaf value) = .leaf value.unsigned := rfl

@[simp] theorem unsigned_array (items : List Json) :
    unsigned (.array items) = .array (items.map unsigned) := by
  rw [unsigned, unsignedItems_eq_map]

@[simp] theorem unsigned_object (fields : List (String × Json)) :
    unsigned (.object fields)
      = .object (fields.map fun field => (field.1, unsigned field.2)) := by
  rw [unsigned, unsignedFields_eq_map]

/-! ## Blanks -/

/-- Every gap of the layout is blank. -/
inductive Layout.Blank : Layout → Prop
  | line : Blank .line
  | indented {gap : List Char} (each : ∀ character ∈ gap, Reader.isSpace character = true) :
      Blank (.indented gap)

theorem Layout.blank_spaces (count : Nat) : (spaces count).Blank := by
  refine .indented fun character member => ?_
  rw [List.eq_of_mem_replicate member]
  rfl

/-- The layouts of an indentation that is given as a number are blank. -/
theorem Layout.blank_ofNumber (indent : Number) : (ofNumber indent).Blank := by
  unfold ofNumber
  split
  · exact blank_spaces _
  · exact .line

namespace Reader

/-- Blanks before a text that does not start with one are skipped. -/
theorem skip_append (blanks : List Char) {text : List Char}
    (blank : ∀ character ∈ blanks, isSpace character = true)
    (visible : ∀ character ∈ text.head?, isSpace character = false) :
    skip (blanks ++ text) = text := by
  rw [skip, List.dropWhile_append_of_pos blank]
  cases text with
  | nil => rfl
  | cons character rest => simp [visible character rfl]

theorem skip_cons {character : Char} (visible : isSpace character = false) (rest : List Char) :
    skip (character :: rest) = character :: rest := by
  simp [skip, visible]

end Reader

theorem Layout.isSpace_of_mem_lineBreak {layout : Layout} (blank : layout.Blank) (depth : Nat) :
    ∀ character ∈ layout.lineBreak depth, Reader.isSpace character = true := by
  intro character member
  cases blank with
  | line => simp [lineBreak] at member
  | indented each =>
      rcases List.mem_cons.mp member with rfl | member
      · rfl
      · obtain ⟨line, isGap, member⟩ := List.mem_flatten.mp member
        rw [List.eq_of_mem_replicate isGap] at member
        exact each character member

/-! ## The steps of the reader -/

namespace Reader

/-- A text that does not continue the value before it: it is empty, or it starts with a blank, a
comma or a closing bracket. -/
def Stops (rest : List Char) : Prop :=
  ∀ character ∈ rest.head?, isSpace character = true ∨ character ∈ [',', ']', '}']

theorem Stops.ends {rest : List Char} (stops : Stops rest) : Numeral.Ends rest := by
  intro character member
  have closing := stops character member
  simp only [isSpace, Bool.or_eq_true, beq_iff_eq, List.mem_cons, List.not_mem_nil, or_false]
    at closing
  rcases closing with (((rfl | rfl) | rfl) | rfl) | rfl | rfl | rfl <;> decide

/-- A number is read where no other value starts. -/
theorem value?_of_decimal? {text rest : List Char} {decimal : Decimal} (budget : Nat)
    (read : Numeral.decimal? text = some (decimal, rest)) :
    value? (budget + 1) text = some (number (Number.ofDecimal decimal), rest) := by
  obtain ⟨first, others, rfl, start⟩ := Numeral.exists_cons_of_decimal? read
  have start : first = '-' ∨ Numeral.isDigit first = true := start.imp_left And.left
  unfold value?
  split
  iterate 6 next same =>
    obtain ⟨rfl, _⟩ := List.cons.inj same
    exact absurd start (by decide)
  next => simp [read]

theorem value?_quote (budget : Nat) (content : String) (rest : List Char) :
    value? (budget + 1) (Quoted.quote content ++ rest) = some (string content, rest) := by
  have text : Quoted.quote content ++ rest
      = '"' :: (Quoted.encode content.toList ++ '"' :: rest) := by
    simp [Quoted.quote]
  rw [text, value?]
  simp [Quoted.decode?_encode]

/-- An array is read from its items. -/
theorem value?_array {budget : Nat} {text rest : List Char} {items : List Json}
    (visible : ∀ character ∈ (skip text).head?, character ≠ ']')
    (read : items? budget (skip text) = some (items, rest)) :
    value? (budget + 1) ('[' :: text) = some (.array items, rest) := by
  rw [value?]
  split
  next same =>
    rw [same] at visible
    exact absurd rfl (visible ']' rfl)
  next => simp [read]

/-- An object is read from its fields. -/
theorem value?_object {budget : Nat} {text rest : List Char} {fields : List (String × Json)}
    (visible : ∀ character ∈ (skip text).head?, character ≠ '}')
    (read : fields? budget (skip text) = some (fields, rest)) :
    value? (budget + 1) ('{' :: text) = some (.object (Fields.ofList fields), rest) := by
  rw [value?]
  split
  next same =>
    rw [same] at visible
    exact absurd rfl (visible '}' rfl)
  next => simp [read]

theorem items?_last {budget : Nat} {text after rest : List Char} {item : Json}
    (read : value? budget text = some (item, after)) (closes : skip after = ']' :: rest) :
    items? (budget + 1) text = some ([item], rest) := by
  simp [items?, read, closes]

theorem items?_more {budget : Nat} {text after between rest : List Char} {item : Json}
    {items : List Json} (read : value? budget text = some (item, after))
    (goesOn : skip after = ',' :: between)
    (readMore : items? budget (skip between) = some (items, rest)) :
    items? (budget + 1) text = some (item :: items, rest) := by
  simp [items?, read, goesOn, readMore]

theorem fields?_last {budget : Nat} {key : String} {text between after rest : List Char}
    {value : Json} (colon : skip text = ':' :: between)
    (read : value? budget (skip between) = some (value, after))
    (closes : skip after = '}' :: rest) :
    fields? (budget + 1) (Quoted.quote key ++ text) = some ([(key, value)], rest) := by
  have quoted : Quoted.quote key ++ text
      = '"' :: (Quoted.encode key.toList ++ '"' :: text) := by
    simp [Quoted.quote]
  rw [quoted, fields?]
  simp [Quoted.decode?_encode, colon, read, closes]

theorem fields?_more {budget : Nat} {key : String} {text between after next rest : List Char}
    {value : Json} {fields : List (String × Json)} (colon : skip text = ':' :: between)
    (read : value? budget (skip between) = some (value, after))
    (goesOn : skip after = ',' :: next)
    (readMore : fields? budget (skip next) = some (fields, rest)) :
    fields? (budget + 1) (Quoted.quote key ++ text) = some ((key, value) :: fields, rest) := by
  have quoted : Quoted.quote key ++ text
      = '"' :: (Quoted.encode key.toList ++ '"' :: text) := by
    simp [Quoted.quote]
  rw [quoted, fields?]
  simp [Quoted.decode?_encode, colon, read, goesOn, readMore]

end Reader

/-! ## Values -/

/-- A scalar is read from its written form. -/
theorem value?_scalarChars {value : Scalar} (finite : value.IsFinite) (budget : Nat)
    {rest : List Char} (stops : Reader.Stops rest) :
    Reader.value? (budget + 1) (scalarChars value ++ rest) = some (.leaf value.unsigned, rest) := by
  cases value with
  | null => rfl
  | boolean value => cases value <;> rfl
  | string value => exact Reader.value?_quote budget value rest
  | number value =>
      have finite : value.isFinite = true := finite
      obtain ⟨decimal, read, same⟩ := Number.decimal?_chars finite stops.ends
      rw [scalarChars, if_pos finite, Reader.value?_of_decimal? budget read, same]
      rfl

theorem isSpace_of_isDigit {digit : Char} (isDigit : Numeral.isDigit digit = true) :
    Reader.isSpace digit = false := by
  by_contra blank
  simp only [Reader.isSpace, Bool.not_eq_false, Bool.or_eq_true, beq_iff_eq] at blank
  rcases blank with ((rfl | rfl) | rfl) | rfl <;> exact absurd isDigit (by decide)

/-- The written form of a value starts with a mark that is no blank and closes nothing. -/
theorem exists_cons_chars {value : Json} (wellFormed : WellFormed value) (layout : Layout)
    (depth : Nat) :
    ∃ first rest, chars layout depth value = first :: rest ∧ Reader.isSpace first = false
      ∧ first ≠ ']' := by
  cases value with
  | array items => cases items <;> exact ⟨_, _, rfl, by decide, by decide⟩
  | object fields => cases fields <;> exact ⟨_, _, rfl, by decide, by decide⟩
  | leaf value =>
      cases value with
      | null => exact ⟨_, _, rfl, by decide, by decide⟩
      | boolean value => cases value <;> exact ⟨_, _, rfl, by decide, by decide⟩
      | string value => exact ⟨_, _, rfl, by decide, by decide⟩
      | number value =>
          have finite : value.isFinite = true := wellFormed_leaf.mp wellFormed
          have ends : Numeral.Ends [] := fun _ member => by simp at member
          obtain ⟨decimal, read, _⟩ := Number.decimal?_chars finite ends
          obtain ⟨first, others, text, start⟩ := Numeral.exists_cons_of_decimal? read
          rw [List.append_nil] at text
          refine ⟨first, others, by rw [chars, scalarChars, if_pos finite, text], ?_⟩
          rcases start with ⟨rfl, _⟩ | digit
          · decide
          · exact ⟨isSpace_of_isDigit digit, by rintro rfl; exact absurd digit (by decide)⟩

section

variable {layout : Layout} (blank : layout.Blank)
include blank

theorem skip_lineBreak_append (depth : Nat) {text : List Char}
    (visible : ∀ character ∈ text.head?, Reader.isSpace character = false) :
    Reader.skip (layout.lineBreak depth ++ text) = text :=
  Reader.skip_append _ (layout.isSpace_of_mem_lineBreak blank depth) visible

theorem stops_lineBreak_append (depth : Nat) {text : List Char} (stops : Reader.Stops text) :
    Reader.Stops (layout.lineBreak depth ++ text) := by
  cases same : layout.lineBreak depth with
  | nil => exact stops
  | cons first rest =>
      intro character member
      obtain rfl : first = character := by simpa using member
      exact .inl (layout.isSpace_of_mem_lineBreak blank depth first (by simp [same]))

theorem skip_colon_append {text : List Char}
    (visible : ∀ character ∈ text.head?, Reader.isSpace character = false) :
    ∃ between, Reader.skip (layout.colon ++ text) = ':' :: between
      ∧ Reader.skip between = text := by
  cases layout with
  | line => exact ⟨text, rfl, Reader.skip_append [] (by simp) visible⟩
  | indented gap =>
      exact ⟨' ' :: text, rfl, Reader.skip_append [' '] (by simp [Reader.isSpace]) visible⟩

/-- In front of whatever stops it, the written form of a value is read as the value. -/
def ReadBack (layout : Layout) (value : Json) : Prop :=
  ∀ depth budget rest, Reader.Stops rest → 2 * (chars layout depth value).length ≤ budget →
    Reader.value? budget (chars layout depth value ++ rest) = some (unsigned value, rest)

omit blank in
theorem visible_chars {value : Json} (wellFormed : WellFormed value) (depth : Nat)
    (rest : List Char) :
    ∀ character ∈ (chars layout depth value ++ rest).head?,
      Reader.isSpace character = false ∧ character ≠ ']' := by
  obtain ⟨first, others, text, visible⟩ := exists_cons_chars wellFormed layout depth
  intro character member
  rw [text] at member
  obtain rfl : first = character := by simpa using member
  exact visible

theorem skip_lineBreak_chars {value : Json} (wellFormed : WellFormed value) (depth : Nat)
    (rest : List Char) :
    Reader.skip (layout.lineBreak depth ++ (chars layout depth value ++ rest))
      = chars layout depth value ++ rest :=
  skip_lineBreak_append blank depth fun character member =>
    (visible_chars wellFormed depth rest character member).1

theorem skip_colon_chars {value : Json} (wellFormed : WellFormed value) (depth : Nat)
    (rest : List Char) :
    ∃ between, Reader.skip (layout.colon ++ (chars layout depth value ++ rest)) = ':' :: between
      ∧ Reader.skip between = chars layout depth value ++ rest :=
  skip_colon_append blank fun character member =>
    (visible_chars wellFormed depth rest character member).1

theorem skip_lineBreak_quote (depth : Nat) (key : String) (rest : List Char) :
    Reader.skip (layout.lineBreak depth ++ (Quoted.quote key ++ rest))
      = Quoted.quote key ++ rest :=
  skip_lineBreak_append blank depth (by simp [Quoted.quote, Reader.isSpace])

omit blank in
theorem stops_itemsChars (depth : Nat) (items : List Json) {rest : List Char}
    (stops : Reader.Stops rest) : Reader.Stops (itemsChars layout depth items ++ rest) := by
  cases items with
  | nil => exact stops
  | cons item items =>
      intro character member
      obtain rfl : ',' = character := by simpa [itemsChars] using member
      exact .inr (by simp)

omit blank in
theorem stops_fieldsChars (depth : Nat) (fields : List (String × Json)) {rest : List Char}
    (stops : Reader.Stops rest) : Reader.Stops (fieldsChars layout depth fields ++ rest) := by
  cases fields with
  | nil => exact stops
  | cons field fields =>
      intro character member
      obtain rfl : ',' = character := by simpa [fieldsChars] using member
      exact .inr (by simp)

omit blank in
theorem itemsChars_cons_append (depth : Nat) (item : Json) (items : List Json) (after : List Char) :
    itemsChars layout depth (item :: items) ++ after
      = ',' :: (layout.lineBreak depth
          ++ (chars layout depth item ++ (itemsChars layout depth items ++ after))) := by
  simp [itemsChars]

omit blank in
theorem fieldsChars_cons_append (depth : Nat) (field : String × Json)
    (fields : List (String × Json)) (after : List Char) :
    fieldsChars layout depth (field :: fields) ++ after
      = ',' :: (layout.lineBreak depth ++ (Quoted.quote field.1 ++ (layout.colon
          ++ (chars layout depth field.2 ++ (fieldsChars layout depth fields ++ after))))) := by
  simp [fieldsChars]

/-- The items of an array are read one after the other. -/
theorem items?_chars (depth closing : Nat) (after : List Char) {first : Json} {rest : List Json}
    (wellFormed : ∀ item ∈ first :: rest, WellFormed item)
    (readBack : ∀ item ∈ first :: rest, ReadBack layout item) {budget : Nat}
    (enough : 2 * ((chars layout depth first).length + (itemsChars layout depth rest).length) + 1
      ≤ budget) :
    Reader.items? budget (chars layout depth first ++ (itemsChars layout depth rest
        ++ (layout.lineBreak closing ++ ']' :: after)))
      = some ((first :: rest).map unsigned, after) := by
  have stops : Reader.Stops (layout.lineBreak closing ++ ']' :: after) := by
    refine stops_lineBreak_append blank closing fun character member => ?_
    obtain rfl : ']' = character := by simpa using member
    exact .inr (by simp)
  induction rest generalizing first budget with
  | nil =>
      obtain ⟨budget, rfl⟩ := Nat.exists_eq_add_of_le' (show 1 ≤ budget by omega)
      refine Reader.items?_last (readBack first List.mem_cons_self depth budget _ stops (by omega)) ?_
      exact skip_lineBreak_append blank closing (by simp [Reader.isSpace])
  | cons second rest ih =>
      obtain ⟨budget, rfl⟩ := Nat.exists_eq_add_of_le' (show 1 ≤ budget by omega)
      simp only [itemsChars, List.length_append, List.length_cons] at enough
      refine Reader.items?_more (readBack first List.mem_cons_self depth budget _
        (stops_itemsChars depth _ stops) (by omega))
        (by rw [itemsChars_cons_append]; exact Reader.skip_cons (by decide) _) ?_
      rw [skip_lineBreak_chars blank (wellFormed second (by simp))]
      exact ih (fun item member => wellFormed item (List.mem_cons_of_mem _ member))
        (fun item member => readBack item (List.mem_cons_of_mem _ member)) (by omega)

/-- The fields of an object are read one after the other. -/
theorem fields?_chars (depth closing : Nat) (after : List Char) {first : String × Json}
    {rest : List (String × Json)} (wellFormed : ∀ field ∈ first :: rest, WellFormed field.2)
    (readBack : ∀ field ∈ first :: rest, ReadBack layout field.2) {budget : Nat}
    (enough : 2 * ((chars layout depth first.2).length + (fieldsChars layout depth rest).length) + 1
      ≤ budget) :
    Reader.fields? budget (Quoted.quote first.1 ++ (layout.colon ++ (chars layout depth first.2
        ++ (fieldsChars layout depth rest ++ (layout.lineBreak closing ++ '}' :: after)))))
      = some ((first :: rest).map fun field => (field.1, unsigned field.2), after) := by
  have stops : Reader.Stops (layout.lineBreak closing ++ '}' :: after) := by
    refine stops_lineBreak_append blank closing fun character member => ?_
    obtain rfl : '}' = character := by simpa using member
    exact .inr (by simp)
  induction rest generalizing first budget with
  | nil =>
      obtain ⟨budget, rfl⟩ := Nat.exists_eq_add_of_le' (show 1 ≤ budget by omega)
      obtain ⟨between, colon, skips⟩ :=
        skip_colon_chars blank (wellFormed first (by simp)) depth _
      refine Reader.fields?_last colon
        (by rw [skips]; exact readBack first List.mem_cons_self depth budget _ stops (by omega)) ?_
      exact skip_lineBreak_append blank closing (by simp [Reader.isSpace])
  | cons second rest ih =>
      obtain ⟨budget, rfl⟩ := Nat.exists_eq_add_of_le' (show 1 ≤ budget by omega)
      obtain ⟨key, value⟩ := second
      simp only [fieldsChars, List.length_append, List.length_cons] at enough
      obtain ⟨between, colon, skips⟩ :=
        skip_colon_chars blank (wellFormed first (by simp)) depth _
      have follows : Reader.Stops (fieldsChars layout depth ((key, value) :: rest)
          ++ (layout.lineBreak closing ++ '}' :: after)) := stops_fieldsChars depth _ stops
      have read := readBack first List.mem_cons_self depth budget _ follows (by omega)
      refine Reader.fields?_more colon (by rw [skips]; exact read)
        (by rw [fieldsChars_cons_append]; exact Reader.skip_cons (by decide) _) ?_
      rw [skip_lineBreak_quote blank]
      exact ih (fun field member => wellFormed field (List.mem_cons_of_mem _ member))
        (fun field member => readBack field (List.mem_cons_of_mem _ member)) (by dsimp only; omega)

/-- **The written form of a value is read as the value**, up to the signs of its zeros. -/
theorem readBack_of_wellFormed {value : Json} (wellFormed : WellFormed value)
    (listed : Listed value) : ReadBack layout value := by
  induction wellFormed with
  | @leaf value finite =>
      intro depth budget rest stops enough
      obtain ⟨first, others, text, _⟩ := exists_cons_chars (.leaf finite) layout depth
      rw [text, List.length_cons] at enough
      obtain ⟨budget, rfl⟩ := Nat.exists_eq_add_of_le' (show 1 ≤ budget by omega)
      exact value?_scalarChars finite budget stops
  | @array items each ih =>
      intro depth budget rest stops enough
      have listedItems : ∀ item ∈ items, Listed item := by
        cases listed with | array each => exact each
      have readItems : ∀ item ∈ items, ReadBack layout item := fun item member =>
        ih item member (listedItems item member)
      cases items with
      | nil =>
          simp only [chars, List.length_cons, List.length_nil] at enough
          obtain ⟨budget, rfl⟩ := Nat.exists_eq_add_of_le' (show 1 ≤ budget by omega)
          simp [chars, Reader.value?, Reader.skip, Reader.isSpace]
      | cons first items =>
          simp only [chars, List.length_append, List.length_cons, List.length_nil] at enough
          obtain ⟨budget, rfl⟩ := Nat.exists_eq_add_of_le' (show 1 ≤ budget by omega)
          have isFirst := each first (by simp)
          simp only [chars, List.append_assoc, List.cons_append, List.nil_append]
          rw [unsigned_array]
          refine Reader.value?_array ?_ ?_
          · rw [skip_lineBreak_chars blank isFirst]
            exact fun character member => (visible_chars isFirst _ _ character member).2
          · rw [skip_lineBreak_chars blank isFirst]
            exact items?_chars blank (depth + 1) depth rest each readItems (by omega)
  | @object fields distinct each ih =>
      intro depth budget rest stops enough
      have ⟨inOrder, listedFields⟩ : Fields.inKeyOrder fields = fields
          ∧ ∀ field ∈ fields, Listed field.2 := by
        cases listed with | object inOrder each => exact ⟨inOrder, each⟩
      have readFields : ∀ field ∈ fields, ReadBack layout field.2 := fun field member =>
        ih field member (listedFields field member)
      have result : unsigned (.object fields)
          = .object (Fields.ofList (fields.map fun field => (field.1, unsigned field.2))) := by
        rw [unsigned_object, Fields.ofList_eq_inKeyOrder (by rwa [Lookup.map_fst_map]),
          Fields.inKeyOrder_map, inOrder]
      cases fields with
      | nil =>
          simp only [chars, List.length_cons, List.length_nil] at enough
          obtain ⟨budget, rfl⟩ := Nat.exists_eq_add_of_le' (show 1 ≤ budget by omega)
          simp [chars, Reader.value?, Reader.skip, Reader.isSpace]
      | cons first fields =>
          obtain ⟨key, value⟩ := first
          simp only [chars, List.length_append, List.length_cons, List.length_nil] at enough
          obtain ⟨budget, rfl⟩ := Nat.exists_eq_add_of_le' (show 1 ≤ budget by omega)
          simp only [chars, List.append_assoc, List.cons_append, List.nil_append]
          rw [result]
          refine Reader.value?_object ?_ ?_
          · rw [skip_lineBreak_quote blank]
            simp [Quoted.quote]
          · rw [skip_lineBreak_quote blank]
            exact fields?_chars blank (depth + 1) depth rest each readFields (by dsimp only; omega)

/-- **Reading a canonical text gives the arranged value**, up to the signs of its zeros. -/
theorem parse?_canonicalText {value : Json} (wellFormed : WellFormed value) (order : KeyOrder) :
    parse? (canonicalText layout order value) = some (unsigned (arrange order value)) := by
  have arranged : WellFormed (arrange order value) := wellFormed_arrange wellFormed
  have characters : (canonicalText layout order value).toList
      = chars layout 0 (arrange order value) ++ ['\n'] := by
    simp [canonicalText, text_eq]
  have stops : Reader.Stops ['\n'] := by
    intro character member
    obtain rfl : '\n' = character := by simpa using member
    exact .inl rfl
  have start : Reader.skip (chars layout 0 (arrange order value) ++ ['\n'])
      = chars layout 0 (arrange order value) ++ ['\n'] :=
    Reader.skip_append [] (by simp) fun character member =>
      (visible_chars arranged 0 _ character member).1
  have read := readBack_of_wellFormed blank arranged (listed_arrange order value) 0
    (2 * (chars layout 0 (arrange order value) ++ ['\n']).length + 2) ['\n'] stops
    (by rw [List.length_append]; omega)
  simp only [parse?, characters, start, read]
  rfl

end

end Json

end DocStore
