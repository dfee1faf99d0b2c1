/-!
# Quoted text

The written form of a string: its characters between quotation marks, where the quotation mark, the
reverse solidus and the control characters are escaped.  `encode` writes the characters and
`decode?` reads them up to the closing mark, accepting every escape that JSON has;
`decode?_encode` says that what is written is read back.
-/

set_option autoImplicit false

namespace DocStore.Json.Quoted

/-- The hexadecimal digit of a value below sixteen. -/
def hexDigit (value : Nat) : Char :=
  if value < 10 then Char.ofNat (48 + value) else Char.ofNat (87 + value)

/-- The value of a hexadecimal digit of either case. -/
def hexValue? (digit : Char) : Option Nat :=
  let code := digit.toNat
  if 48 ≤ code ∧ code ≤ 57 then some (code - 48)
  else if 97 ≤ code ∧ code ≤ 102 then some (code - 87)
  else if 65 ≤ code ∧ code ≤ 70 then some (code - 55)
  else none

/-- How a character is written inside quotation marks. -/
def encodeChar (character : Char) : List Char :=
  if character = '"' then ['\\', '"']
  else if character = '\\' then ['\\', '\\']
  else if character = '\n' then ['\\', 'n']
  else if character = '\t' then ['\\', 't']
  else if character = '\r' then ['\\', 'r']
  else if character.toNat = 8 then ['\\', 'b']
  else if character.toNat = 12 then ['\\', 'f']
  else if character.toNat < 32 then
    ['\\', 'u', '0', '0', hexDigit (character.toNat / 16), hexDigit (character.toNat % 16)]
  else [character]

/-- How a text is written inside quotation marks. -/
def encode (text : List Char) : List Char :=
  text.flatMap encodeChar

/-- A text between quotation marks. -/
def quote (text : String) : List Char :=
  '"' :: encode text.toList ++ ['"']

/-- The character of a one-letter escape. -/
def shortEscape? : Char → Option Char
  | '"' => some '"'
  | '\\' => some '\\'
  | '/' => some '/'
  | 'b' => some (Char.ofNat 8)
  | 'f' => some (Char.ofNat 12)
  | 'n' => some '\n'
  | 'r' => some '\r'
  | 't' => some '\t'
  | _ => none

/-- The sixteen-bit unit of four hexadecimal digits. -/
def unit? (a b c d : Char) : Option Nat := do
  let a ← hexValue? a
  let b ← hexValue? b
  let c ← hexValue? c
  let d ← hexValue? d
  return ((a * 16 + b) * 16 + c) * 16 + d

/-- Whether a unit opens a pair. -/
def isLeading (unit : Nat) : Bool :=
  0xD800 ≤ unit && unit < 0xDC00

/-- Whether a unit closes a pair. -/
def isTrailing (unit : Nat) : Bool :=
  0xDC00 ≤ unit && unit < 0xE000

/-- The character that a pair of units writes. -/
def pairChar (leading trailing : Nat) : Char :=
  Char.ofNat (0x10000 + (leading - 0xD800) * 0x400 + (trailing - 0xDC00))

/-- The character that a unit writes alone; half of a pair becomes the replacement character. -/
def unitChar (unit : Nat) : Char :=
  if isLeading unit || isTrailing unit then '\uFFFD' else Char.ofNat unit

/-- The codes of the characters up to the closing quotation mark, and what follows it.  An escape of
four digits contributes its unit as it stands. -/
def codes? : List Char → Option (List Nat × List Char)
  | '"' :: rest => some ([], rest)
  | '\\' :: 'u' :: a :: b :: c :: d :: rest => do
      let unit ← unit? a b c d
      let (codes, rest) ← codes? rest
      return (unit :: codes, rest)
  | '\\' :: escape :: rest => do
      let character ← shortEscape? escape
      let (codes, rest) ← codes? rest
      return (character.toNat :: codes, rest)
  | character :: rest =>
      if character.toNat < 32 ∨ character = '\\' then none
      else do
        let (codes, rest) ← codes? rest
        return (character.toNat :: codes, rest)
  | [] => none

/-- The characters that a list of codes writes: a first half and a second half in a row make one
character. -/
def joinPairs : List Nat → List Char
  | leading :: trailing :: rest =>
      if isLeading leading && isTrailing trailing then
        pairChar leading trailing :: joinPairs rest
      else unitChar leading :: joinPairs (trailing :: rest)
  | [code] => [unitChar code]
  | [] => []

/-- Characters up to the closing quotation mark, and what follows it. -/
def decode? (text : List Char) : Option (List Char × List Char) :=
  (codes? text).map fun (codes, rest) => (joinPairs codes, rest)

/-! ## What is written is read back -/

theorem isLeading_toNat (character : Char) : isLeading character.toNat = false := by
  have valid := character.valid
  simp only [isLeading, Bool.and_eq_false_iff, decide_eq_false_iff_not]
  simp only [UInt32.isValidChar, Nat.isValidChar] at valid
  have same : character.val.toNat = character.toNat := rfl
  omega

theorem isTrailing_toNat (character : Char) : isTrailing character.toNat = false := by
  have valid := character.valid
  simp only [isTrailing, Bool.and_eq_false_iff, decide_eq_false_iff_not]
  simp only [UInt32.isValidChar, Nat.isValidChar] at valid
  have same : character.val.toNat = character.toNat := rfl
  omega

theorem unitChar_toNat (character : Char) : unitChar character.toNat = character := by
  simp [unitChar, isLeading_toNat, isTrailing_toNat]

theorem joinPairs_map_toNat (text : List Char) : joinPairs (text.map Char.toNat) = text := by
  induction text with
  | nil => rfl
  | cons character rest ih =>
      cases rest with
      | nil => simp [joinPairs, unitChar_toNat]
      | cons next rest =>
          simp only [List.map_cons] at ih ⊢
          simp [joinPairs, isLeading_toNat, unitChar_toNat, ih]

theorem codes?_cons (character : Char) (plain : ¬ character.toNat < 32) (notMark : character ≠ '"')
    (notEscape : character ≠ '\\') (rest : List Char) :
    codes? (character :: rest)
      = (codes? rest).map fun (codes, rest) => (character.toNat :: codes, rest) := by
  rw [codes?]
  · simp [plain, notEscape]
    cases codes? rest <;> rfl
  · exact notMark
  · intro _ _ _ _ _ same _; exact notEscape same
  · intro _ _ same _; exact notEscape same

theorem unit?_control : ∀ code < 32,
    unit? '0' '0' (hexDigit (code / 16)) (hexDigit (code % 16)) = some code := by
  decide

theorem codes?_encodeChar (character : Char) (rest : List Char) :
    codes? (encodeChar character ++ rest)
      = (codes? rest).map fun (codes, rest) => (character.toNat :: codes, rest) := by
  unfold encodeChar
  split
  · next same => subst same; simp [codes?, shortEscape?]; cases codes? rest <;> rfl
  split
  · next same => subst same; simp [codes?, shortEscape?]; cases codes? rest <;> rfl
  split
  · next same => subst same; simp [codes?, shortEscape?]; cases codes? rest <;> rfl
  split
  · next same => subst same; simp [codes?, shortEscape?]; cases codes? rest <;> rfl
  split
  · next same => subst same; simp [codes?, shortEscape?]; cases codes? rest <;> rfl
  split
  · next same => simp [codes?, shortEscape?, same]; cases codes? rest <;> rfl
  split
  · next same => simp [codes?, shortEscape?, same]; cases codes? rest <;> rfl
  split
  · next control => simp [codes?, unit?_control _ control]; cases codes? rest <;> rfl
  · next notMark notEscape _ _ _ _ _ plain =>
      exact codes?_cons character plain notMark notEscape rest

theorem codes?_encode (text : List Char) (rest : List Char) :
    codes? (encode text ++ '"' :: rest) = some (text.map Char.toNat, rest) := by
  induction text with
  | nil => simp [encode, codes?]
  | cons character tail ih =>
      have split : encode (character :: tail) = encodeChar character ++ encode tail := by
        simp [encode]
      rw [split, List.append_assoc, codes?_encodeChar, ih]
      rfl

/-- A quoted text is read back, up to its closing mark. -/
theorem decode?_encode (text : List Char) (rest : List Char) :
    decode? (encode text ++ '"' :: rest) = some (text, rest) := by
  simp [decode?, codes?_encode, joinPairs_map_toNat]

end DocStore.Json.Quoted
