import DocStore.Collection.Name
import DocStore.Files.Atomic
import DocStore.Files.Key
import DocStore.Host.Machine
import DocStore.Proofs.Disk.Walk
/-!
# The names of what a storage keeps

All names that a storage gives to files and directories are made of the characters of the names of
collections, so they are plain names (`plain_of_isNameChar`).  The file of a key is visible and ends
as stored files do (`stored_keyName`); everything that is there only for a while has a hidden name.
-/

set_option autoImplicit false

namespace DocStore.Files

open Collection (isNameChar)
open Disk (Plain)

/-! ## Names made of harmless characters -/

theorem utf8Size_of_isNameChar {character : Char} (isName : isNameChar character = true) :
    character.utf8Size = 1 := by
  rw [Char.utf8Size_eq_one_iff, UInt32.le_iff_toNat_le]
  delta isNameChar Char.isAlphanum Char.isAlpha Char.isUpper Char.isLower Char.isDigit at isName
  simp only [Bool.or_eq_true, Bool.and_eq_true, decide_eq_true_eq, beq_iff_eq, ge_iff_le,
    UInt32.le_iff_toNat_le, Char.ext_iff, ← UInt32.toNat_inj] at isName
  change character.val.toNat ≤ 127
  have codes : 'A'.val.toNat = 65 ∧ 'Z'.val.toNat = 90 ∧ 'a'.val.toNat = 97 ∧ 'z'.val.toNat = 122
      ∧ '0'.val.toNat = 48 ∧ '9'.val.toNat = 57 ∧ '_'.val.toNat = 95 ∧ '.'.val.toNat = 46
      ∧ '-'.val.toNat = 45 := by decide
  omega

/-- Whether the characters of a text are harmless can be computed. -/
theorem isNameChar_of_all {text : String} (all : text.toList.all isNameChar = true) :
    ∀ character ∈ text.toList, isNameChar character = true :=
  List.all_eq_true.mp all

theorem utf8ByteSize_of_isNameChar {name : List Char}
    (harmless : ∀ character ∈ name, isNameChar character = true) :
    (String.ofList name).utf8ByteSize = name.length := by
  induction name with
  | nil => rfl
  | cons character rest ih =>
      have size := utf8Size_of_isNameChar (harmless character (by simp))
      have others := ih fun other member => harmless other (List.mem_cons_of_mem _ member)
      rw [← List.singleton_append, String.ofList_append, String.utf8ByteSize_append, others,
        List.length_append, List.length_singleton]
      rw [← String.singleton_eq_ofList, String.utf8ByteSize_singleton, size]

/-- A name of harmless characters is plain unless it is too long or stands for a directory. -/
theorem plain_of_isNameChar {name : String}
    (harmless : ∀ character ∈ name.toList, isNameChar character = true)
    (short : name.toList.length ≤ Disk.maxNameBytes) (nonempty : name ≠ "") (notHere : name ≠ ".")
    (notAbove : name ≠ "..") : Plain name where
  nonempty := nonempty
  notHere := notHere
  notAbove := notAbove
  short := by
    have size := utf8ByteSize_of_isNameChar harmless
    rw [String.ofList_toList] at size
    omega
  noSolidus member := absurd (harmless _ member) (by decide)
  noZero member := absurd (harmless _ member) (by decide)

/-- Every name that starts with a point and goes on with harmless characters is plain, if it is
neither too long nor too short. -/
theorem plain_hidden {text : List Char}
    (harmless : ∀ character ∈ text, isNameChar character = true)
    (long : 2 ≤ text.length) (short : text.length < Disk.maxNameBytes) :
    Plain (String.ofList ('.' :: text)) := by
  have differs {other : String} (few : other.toList.length ≤ 2) :
      String.ofList ('.' :: text) ≠ other := by
    rintro rfl
    rw [String.toList_ofList, List.length_cons] at few
    omega
  refine plain_of_isNameChar (fun character member => ?_) ?_ (differs (by decide))
    (differs (by decide)) (differs (by decide))
  · rw [String.toList_ofList] at member
    rcases List.mem_cons.mp member with rfl | member
    · decide
    · exact harmless character member
  · rw [String.toList_ofList, List.length_cons]
    exact short

/-! ## Stored files -/

/-- How many characters the name of a stored file may have. -/
def maxStoredLength : Nat := maxKeyLength + storedEnding.length

/-- The name of a stored file: harmless characters, of which the first is no point, and the ending
of stored files. -/
structure Stored (name : String) : Prop where
  harmless : ∀ character ∈ name.toList, isNameChar character = true
  short : name.toList.length ≤ maxStoredLength
  seen : isHidden name = false
  ends : hasEnding storedEnding name = true

theorem isNameChar_letter {value : Nat} (small : value < 64) :
    isNameChar (Digest.Base64Url.letter value) = true := by
  revert value
  decide

/-- What bytes are written with are the sixty-four letters. -/
theorem exists_letter_of_mem : ∀ bytes : List Nat, (∀ byte ∈ bytes, byte < 256) →
    ∀ character ∈ Digest.Base64Url.encode bytes,
      ∃ value < 64, character = Digest.Base64Url.letter value
  | [], _, _, member => absurd member (by simp [Digest.Base64Url.encode])
  | [a], small, character, member => by
      have first := small a (by simp)
      simp only [Digest.Base64Url.encode, List.mem_cons, List.not_mem_nil, or_false] at member
      rcases member with rfl | rfl <;> exact ⟨_, by omega, rfl⟩
  | [a, b], small, character, member => by
      have first := small a (by simp)
      have second := small b (by simp)
      simp only [Digest.Base64Url.encode, List.mem_cons, List.not_mem_nil, or_false] at member
      rcases member with rfl | rfl | rfl <;> exact ⟨_, by omega, rfl⟩
  | a :: b :: c :: rest, small, character, member => by
      have first := small a (by simp)
      have second := small b (by simp)
      have third := small c (by simp)
      simp only [Digest.Base64Url.encode, List.mem_cons] at member
      rcases member with rfl | rfl | rfl | rfl | member
      iterate 4 exact ⟨_, by omega, rfl⟩
      exact exists_letter_of_mem rest (fun byte isByte => small byte (by simp [isByte])) _ member

theorem isNameChar_encode (bytes : List Nat) (small : ∀ byte ∈ bytes, byte < 256) :
    ∀ character ∈ Digest.Base64Url.encode bytes, isNameChar character = true := by
  intro character member
  obtain ⟨value, isValue, rfl⟩ := exists_letter_of_mem bytes small character member
  exact isNameChar_letter isValue

/-- What a digest is written with are the sixteen digits. -/
theorem exists_digit_of_mem {bytes : List Nat} {character : Char}
    (member : character ∈ (Identifier.ofBytes bytes).toList) :
    ∃ value < 16, character = Json.Quoted.hexDigit value := by
  rw [Identifier.ofBytes, String.toList_ofList, List.mem_flatMap] at member
  obtain ⟨byte, _, member⟩ := member
  simp only [Identifier.byteDigits, List.mem_cons, List.not_mem_nil, or_false] at member
  rcases member with rfl | rfl <;> exact ⟨_, Nat.mod_lt _ (by decide), rfl⟩

theorem isNameChar_ofBytes {bytes : List Nat} :
    ∀ character ∈ (Identifier.ofBytes bytes).toList, isNameChar character = true := by
  have isDigit : ∀ value < 16, isNameChar (Json.Quoted.hexDigit value) = true := by decide
  intro character member
  obtain ⟨value, small, rfl⟩ := exists_digit_of_mem member
  exact isDigit value small

theorem length_ofBytes (bytes : List Nat) :
    (Identifier.ofBytes bytes).toList.length = 2 * bytes.length := by
  rw [Identifier.ofBytes, String.toList_ofList]
  induction bytes with
  | nil => rfl
  | cons byte rest ih =>
      rw [List.flatMap_cons, List.length_append, ih, List.length_cons]
      simp [Identifier.byteDigits]
      omega

theorem length_bigEndian (count value : Nat) : (Digest.bigEndian count value).length = count := by
  rw [Digest.bigEndian, List.length_map, List.length_range]

theorem length_sha256 (bytes : List Nat) : (Digest.sha256 bytes).length = 32 := by
  simp only [Digest.sha256, Digest.State.words, List.flatMap_cons, List.flatMap_nil,
    List.length_append, length_bigEndian, List.length_nil]

/-- A name is stored that starts with a mark and goes on with harmless characters up to the ending
of stored files. -/
theorem stored_of_letters {mark : Char} {letters : List Char} (isMark : mark ≠ '.')
    (harmless : ∀ character ∈ mark :: letters, isNameChar character = true)
    (short : letters.length < maxKeyLength) :
    Stored (String.ofList (mark :: letters) ++ storedEnding) where
  harmless character member := by
    rw [String.toList_append, String.toList_ofList] at member
    have ending : ∀ character ∈ storedEnding.toList, isNameChar character = true :=
      isNameChar_of_all (by decide)
    rcases List.mem_append.mp member with inLetters | inEnding
    · exact harmless character inLetters
    · exact ending character inEnding
  short := by
    rw [String.toList_append, String.toList_ofList, List.length_append, List.length_cons]
    have ending : storedEnding.toList.length = storedEnding.length := by decide
    simp only [maxStoredLength, ending]
    omega
  seen := by
    rw [isHidden, String.toList_append, String.toList_ofList]
    simpa using isMark
  ends := by
    have pointed : isHidden storedEnding = true := by decide
    rw [hasEnding, pointed, if_pos rfl, List.isSuffixOf_iff_suffix, String.toList_append]
    exact List.suffix_append _ _

theorem lt_of_mem_bytesOf {key : String} {byte : Nat} (member : byte ∈ bytesOf key) :
    byte < 256 := by
  obtain ⟨unit, _, rfl⟩ := List.mem_map.mp member
  exact unit.toNat_lt

/-- The file of a key has the name of a stored file. -/
theorem stored_keyName (key : String) : Stored (keyName key) := by
  unfold keyName bytesName?
  have letters := isNameChar_encode (bytesOf key) fun _ => lt_of_mem_bytesOf
  dsimp only
  split
  next short =>
    rw [Option.getD_some]
    refine stored_of_letters (by decide) (fun character member => ?_) ?_
    · rcases List.mem_cons.mp member with rfl | member
      · decide
      · exact letters character member
    · rw [List.length_cons] at short
      omega
  next =>
    rw [Option.getD_none, digestName]
    have size := length_sha256 (bytesOf key)
    generalize Digest.sha256 (bytesOf key) = digest at size
    have parts : "h" ++ Identifier.ofBytes digest
        = String.ofList ('h' :: (Identifier.ofBytes digest).toList) := by
      rw [← String.toList_inj, String.toList_append, String.toList_ofList, String.toList_ofList]
      rfl
    rw [parts]
    refine stored_of_letters (by decide) (fun character member => ?_) ?_
    · rcases List.mem_cons.mp member with rfl | member
      · decide
      · exact isNameChar_ofBytes character member
    · rw [length_ofBytes, size]
      decide

theorem Stored.plain {name : String} (stored : Stored name) : Plain name := by
  have hasDot : '.' :: ['j', 's', 'o', 'n'] <:+ name.toList := by
    have ends := stored.ends
    have pointed : isHidden storedEnding = true := by decide
    rw [hasEnding, pointed, if_pos rfl, List.isSuffixOf_iff_suffix] at ends
    exact ends
  have long := hasDot.length_le
  have differs {other : String} (few : other.toList.length ≤ 2) : name ≠ other := by
    rintro rfl
    simp only [List.length_cons, List.length_nil] at long
    omega
  refine plain_of_isNameChar stored.harmless (Nat.le_trans stored.short (by decide))
    (differs (by decide)) (differs (by decide)) (differs (by decide))

/-! ## Names for a while -/

/-- A fresh name has thirty-six digits. -/
theorem length_freshName (number : Nat) : (Host.Machine.freshName number).toList.length = 36 := by
  rw [Host.Machine.freshName, Calendar.padded, String.toList_ofList, List.length_append,
    List.length_replicate]
  have few : (Nat.toDigits 10 (number % Nat.pow 10 Host.Machine.freshNameLength)).length ≤ 36 := by
    rw [Nat.length_toDigits_le_iff (by decide) (by decide)]
    exact Nat.mod_lt _ (by decide)
  have width : Host.Machine.freshNameLength = 36 := rfl
  omega

theorem isNameChar_freshName (number : Nat) :
    ∀ character ∈ (Host.Machine.freshName number).toList, isNameChar character = true := by
  intro character member
  rw [Host.Machine.freshName, Calendar.padded, String.toList_ofList, List.mem_append] at member
  rcases member with isZero | isDigit
  · rw [(List.mem_replicate.mp isZero).2]
    decide
  · have digit := Nat.isDigit_of_mem_toDigits (by decide) (by decide) isDigit
    rw [isNameChar, Char.isAlphanum, digit, Bool.or_true, Bool.true_or, Bool.true_or, Bool.true_or]

/-- Fresh names are distinct as long as they have not started over. -/
theorem freshName_inj {first second : Nat}
    (few : first < Nat.pow 10 Host.Machine.freshNameLength)
    (few' : second < Nat.pow 10 Host.Machine.freshNameLength)
    (same : Host.Machine.freshName first = Host.Machine.freshName second) : first = second := by
  have value (number : Nat) (few : number < Nat.pow 10 Host.Machine.freshNameLength) :
      Nat.ofDigitChars 10 (Host.Machine.freshName number).toList 0 = number := by
    rw [Host.Machine.freshName, Calendar.padded, String.toList_ofList, Nat.mod_eq_of_lt few,
      Nat.ofDigitChars_append, Nat.ofDigitChars_replicate_zero, Nat.mul_zero,
      Nat.ofDigitChars_ten_toDigits]
  rw [← value first few, ← value second few', same]

/-- The name of a file while it is being written. -/
def temporaryName (name fresh : String) : String := "." ++ name ++ "." ++ fresh ++ ".tmp"

theorem temporaryName_eq (name fresh : String) :
    temporaryName name fresh
      = String.ofList ('.' :: (name.toList ++ '.' :: (fresh.toList ++ ".tmp".toList))) := by
  rw [← String.toList_inj, String.toList_ofList]
  simp [temporaryName]

theorem Stored.plain_temporary {name : String} (stored : Stored name) (number : Nat) :
    Plain (temporaryName name (Host.Machine.freshName number)) := by
  have size := length_freshName number
  have fresh := isNameChar_freshName number
  have ending : ∀ character ∈ ".tmp".toList, isNameChar character = true :=
    isNameChar_of_all (by decide)
  have short := stored.short
  have most : maxStoredLength = 205 := by decide
  have endingSize : ".tmp".toList.length = 4 := by decide
  rw [temporaryName_eq]
  refine plain_hidden (fun character member => ?_) ?_ ?_
  · rcases List.mem_append.mp member with inName | member
    · exact stored.harmless character inName
    rcases List.mem_cons.mp member with rfl | member
    · decide
    rcases List.mem_append.mp member with inFresh | inEnding
    · exact fresh character inFresh
    · exact ending character inEnding
  all_goals
    simp only [List.length_append, List.length_cons, size, endingSize, Disk.maxNameBytes]
    omega

theorem temporaryName_ne (name fresh : String) : temporaryName name fresh ≠ name := by
  intro same
  have sizes := congrArg (fun text : String => text.toList.length) same
  rw [temporaryName_eq, String.toList_ofList] at sizes
  simp only [List.length_cons, List.length_append] at sizes
  omega

theorem isHidden_temporaryName (name fresh : String) :
    isHidden (temporaryName name fresh) = true := by
  rw [temporaryName_eq, isHidden, String.toList_ofList]
  rfl

/-- A hidden mark before a fresh name, for a directory that is there for a while. -/
structure Mark (mark : String) : Prop where
  hidden : mark.toList.head? = some '.'
  harmless : ∀ character ∈ mark.toList, isNameChar character = true
  short : mark.toList.length ≤ maxKeyLength

theorem mark_staging : Mark ".staging-" :=
  ⟨by decide, isNameChar_of_all (by decide), by decide⟩

theorem mark_trash : Mark ".trash-" := ⟨by decide, isNameChar_of_all (by decide), by decide⟩

section

variable {mark : String} (isMark : Mark mark) (number : Nat)
include isMark

theorem Mark.plain : Plain (mark ++ Host.Machine.freshName number) := by
  have size := length_freshName number
  have sum : (mark ++ Host.Machine.freshName number).toList.length = mark.toList.length + 36 := by
    rw [String.toList_append, List.length_append, size]
  have differs {other : String} (few : other.toList.length ≤ 2) :
      mark ++ Host.Machine.freshName number ≠ other := by
    rintro rfl
    omega
  refine plain_of_isNameChar (fun character member => ?_) ?_ (differs (by decide))
    (differs (by decide)) (differs (by decide))
  · rw [String.toList_append] at member
    rcases List.mem_append.mp member with inMark | inFresh
    · exact isMark.harmless character inMark
    · exact isNameChar_freshName number character inFresh
  · have short := isMark.short
    have most : maxKeyLength = 200 := rfl
    have bytes : Disk.maxNameBytes = 255 := rfl
    omega

theorem Mark.isHidden : isHidden (mark ++ Host.Machine.freshName number) = true := by
  have hidden := isMark.hidden
  rw [Files.isHidden, String.toList_append]
  cases letters : mark.toList with
  | nil => simp [letters] at hidden
  | cons first rest =>
      rw [letters] at hidden
      simpa using hidden

omit isMark in
/-- A name that holds a fresh one is not short. -/
theorem marked_ne {other : String} (few : other.toList.length < Host.Machine.freshNameLength) :
    mark ++ Host.Machine.freshName number ≠ other := by
  rintro rfl
  rw [String.toList_append, List.length_append, length_freshName] at few
  have width : Host.Machine.freshNameLength = 36 := rfl
  omega

end

/-- What is prepared and what is moved away have different names. -/
theorem staging_ne_trash (number number' : Nat) :
    ".staging-" ++ Host.Machine.freshName number ≠ ".trash-" ++ Host.Machine.freshName number' := by
  intro same
  have letters := congrArg (fun text : String => text.toList[1]?) same
  simp [String.toList_append] at letters

/-! ## Collections -/

/-- What the name of a collection is made of. -/
structure Named (name : String) : Prop where
  harmless : ∀ character ∈ name.toList, isNameChar character = true
  short : name.toList.length ≤ Collection.maxNameLength
  seen : isHidden name = false
  nonempty : name ≠ ""
  accepted : Collection.nameFault? name = none

theorem length_le_units (text : List Char) : text.length ≤ (Text.units text).length := by
  induction text with
  | nil => exact Nat.zero_le _
  | cons character rest ih =>
      have some : 1 ≤ (Text.charUnits character).length := by
        unfold Text.charUnits
        dsimp only
        split <;> simp
      rw [Text.units, List.flatMap_cons, List.length_append, List.length_cons]
      rw [Text.units] at ih
      omega

theorem named_of_nameFault? {name : String} (noFault : Collection.nameFault? name = none) :
    Named name := by
  have accepted := noFault
  unfold Collection.nameFault? at noFault
  dsimp only at noFault
  split at noFault
  · cases noFault
  next nonempty =>
    split at noFault
    · cases noFault
    next short =>
      split at noFault
      · cases noFault
      next harmless =>
        split at noFault
        · cases noFault
        next opening =>
          refine ⟨?_, ?_, ?_, ?_, accepted⟩
          · simpa using harmless
          · exact Nat.le_trans (length_le_units _) (Nat.not_lt.mp short)
          · simpa [isHidden] using (not_or.mp opening).1
          · rintro rfl
            exact nonempty rfl

theorem Named.plain {name : String} (named : Named name) : Plain name := by
  refine plain_of_isNameChar named.harmless (Nat.le_trans named.short (by decide)) named.nonempty
    ?_ ?_
  all_goals
    rintro rfl
    exact absurd named.seen (by decide)

/-- The name of the lock of a collection. -/
theorem Named.plain_lock {name : String} (named : Named name) : Plain (name ++ ".lock") := by
  have ending : ∀ character ∈ ".lock".toList, isNameChar character = true :=
    isNameChar_of_all (by decide)
  have endingSize : ".lock".toList.length = 5 := by decide
  have short := named.short
  have most : Collection.maxNameLength = 128 := rfl
  have differs {other : String} (few : other.toList.length ≤ 2) : name ++ ".lock" ≠ other := by
    rintro rfl
    rw [String.toList_append, List.length_append, endingSize] at few
    omega
  refine plain_of_isNameChar (fun character member => ?_) ?_ (differs (by decide))
    (differs (by decide)) (differs (by decide))
  · rw [String.toList_append] at member
    rcases List.mem_append.mp member with inName | inEnding
    · exact named.harmless character inName
    · exact ending character inEnding
  · rw [String.toList_append, List.length_append, endingSize, Disk.maxNameBytes]
    omega

end DocStore.Files
