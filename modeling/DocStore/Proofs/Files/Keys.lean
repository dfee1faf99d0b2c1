import DocStore.Json.Quoted
import DocStore.Proofs.Disk.Path
import DocStore.Proofs.Files.Names
import DocStore.Proofs.Sorting
import Mathlib.Data.Set.Function
/-!
# Keys and the names of their files

Different keys have different files, as far as the digest tells them apart (`keyName_injOn`).  A
short key is read off its file: base 64 gives different texts to different bytes
(`encode_injective`), and a text is known by its bytes (`bytesOf_injective`).  Only the file of a
long key is named after a digest.
-/

set_option autoImplicit false

namespace DocStore.Files

open Digest.Base64Url (letter encode)

/-! ## Bytes of texts -/

/-- The loop has put the bytes before its place in front of those that it has found, reversed. -/
theorem toList_loop (bytes : ByteArray) {rest place : Nat} (found : List UInt8)
    (isRest : bytes.size - place = rest) :
    ByteArray.toList.loop bytes place found = found.reverse ++ bytes.data.toList.drop place := by
  have size : bytes.data.toList.length = bytes.size := rfl
  induction rest generalizing place found with
  | zero =>
      rw [ByteArray.toList.loop.eq_def, if_neg (by omega),
        List.drop_of_length_le (by omega), List.append_nil]
  | succ rest ih =>
      have inside : place < bytes.data.toList.length := by omega
      have here : bytes.get! place = bytes.data.toList[place] := by
        show bytes.data[place]! = _
        rw [getElem!_pos bytes.data place inside]
        rfl
      rw [ByteArray.toList.loop.eq_def, if_pos (by omega), ih _ (by omega), here,
        List.drop_eq_getElem_cons inside, List.reverse_cons, List.append_assoc]
      rfl

theorem toList_eq (bytes : ByteArray) : bytes.toList = bytes.data.toList := by
  rw [ByteArray.toList, toList_loop bytes [] rfl]
  rfl

/-- A text is known by its bytes. -/
theorem bytesOf_injective : Function.Injective bytesOf := by
  intro first second same
  have bytes := List.map_injective_iff.mpr (fun _ _ => UInt8.toNat_inj.mp) same
  rw [toList_eq, toList_eq] at bytes
  exact String.toByteArray_inj.mp (ByteArray.ext (Array.toList_inj.mp bytes))

/-! ## Base 64 -/

/-- The value of a letter. -/
def letterValue (character : Char) : Nat :=
  let code := character.toNat
  if code = 45 then 62
  else if code = 95 then 63
  else if code < 58 then code + 4
  else if code < 91 then code - 65
  else code - 71

theorem letterValue_letter {value : Nat} (small : value < 64) :
    letterValue (letter value) = value := by
  revert value
  decide

theorem letter_inj {first second : Nat} (small : first < 64) (small' : second < 64)
    (same : letter first = letter second) : first = second := by
  rw [← letterValue_letter small, ← letterValue_letter small', same]

/-- Different bytes are written differently. -/
theorem encode_injective : ∀ {bytes bytes' : List Nat}, (∀ byte ∈ bytes, byte < 256) →
    (∀ byte ∈ bytes', byte < 256) → encode bytes = encode bytes' → bytes = bytes'
  | [], [], _, _, _ => rfl
  | [a], [a'], small, small', same => by
      simp only [List.mem_singleton, forall_eq] at small small'
      simp only [encode, List.cons.injEq, and_true] at same
      have first := letter_inj (by omega) (by omega) same.1
      have second := letter_inj (by omega) (by omega) same.2
      rw [show a = a' by omega]
  | [a, b], [a', b'], small, small', same => by
      simp only [List.mem_cons, List.not_mem_nil, or_false, forall_eq_or_imp, forall_eq]
        at small small'
      simp only [encode, List.cons.injEq, and_true] at same
      have first := letter_inj (by omega) (by omega) same.1
      have second := letter_inj (by omega) (by omega) same.2.1
      have third := letter_inj (by omega) (by omega) same.2.2
      rw [show a = a' by omega, show b = b' by omega]
  | a :: b :: c :: rest, a' :: b' :: c' :: rest', small, small', same => by
      have others : encode rest = encode rest' → rest = rest' :=
        encode_injective (fun byte isByte => small byte (by simp [isByte]))
          (fun byte isByte => small' byte (by simp [isByte]))
      simp only [List.mem_cons, forall_eq_or_imp] at small small'
      simp only [encode, List.cons.injEq] at same
      have first := letter_inj (by omega) (by omega) same.1
      have second := letter_inj (by omega) (by omega) same.2.1
      have third := letter_inj (by omega) (by omega) same.2.2.1
      have fourth := letter_inj (by omega) (by omega) same.2.2.2.1
      rw [show a = a' by omega, show b = b' by omega, show c = c' by omega,
        others same.2.2.2.2]
  | [], [_], _, _, same | [], [_, _], _, _, same | [], _ :: _ :: _ :: _, _, _, same
  | [_], [], _, _, same | [_], [_, _], _, _, same | [_], _ :: _ :: _ :: _, _, _, same
  | [_, _], [], _, _, same | [_, _], [_], _, _, same | [_, _], _ :: _ :: _ :: _, _, _, same
  | _ :: _ :: _ :: _, [], _, _, same | _ :: _ :: _ :: _, [_], _, _, same
  | _ :: _ :: _ :: _, [_, _], _, _, same => by simp [encode] at same

/-! ## Digests -/

theorem hexDigit_inj {first second : Nat} (small : first < 16) (small' : second < 16)
    (same : Json.Quoted.hexDigit first = Json.Quoted.hexDigit second) : first = second := by
  have all : ∀ first < 16, ∀ second < 16,
      Json.Quoted.hexDigit first = Json.Quoted.hexDigit second → first = second := by decide
  exact all first small second small' same

theorem ofBytes_injective {bytes bytes' : List Nat} (small : ∀ byte ∈ bytes, byte < 256)
    (small' : ∀ byte ∈ bytes', byte < 256)
    (same : Identifier.ofBytes bytes = Identifier.ofBytes bytes') : bytes = bytes' := by
  replace same := String.ofList_injective same
  induction bytes generalizing bytes' with
  | nil =>
      cases bytes' with
      | nil => rfl
      | cons byte' rest' => cases same
  | cons byte rest ih =>
      cases bytes' with
      | nil => cases same
      | cons byte' rest' =>
          simp only [List.mem_cons, forall_eq_or_imp] at small small'
          simp only [List.flatMap_cons, Identifier.byteDigits, List.cons_append, List.nil_append,
            List.cons.injEq] at same
          have high := hexDigit_inj (Nat.mod_lt _ (by decide)) (Nat.mod_lt _ (by decide)) same.1
          have low := hexDigit_inj (Nat.mod_lt _ (by decide)) (Nat.mod_lt _ (by decide)) same.2.1
          rw [ih small.2 small'.2 same.2.2, show byte = byte' by omega]

theorem lt_of_mem_sha256 {bytes : List Nat} {byte : Nat} (member : byte ∈ Digest.sha256 bytes) :
    byte < 256 := by
  rw [Digest.sha256, List.mem_flatMap] at member
  obtain ⟨word, _, member⟩ := member
  obtain ⟨index, _, rfl⟩ := List.mem_map.mp member
  exact Nat.mod_lt _ (by decide)

/-! ## Files of keys -/

/-- Keys that the digest tells apart. -/
def Apart (keys : Set String) : Prop :=
  ∀ key ∈ keys, ∀ key' ∈ keys,
    Digest.sha256 (bytesOf key) = Digest.sha256 (bytesOf key') → key = key'

/-- The file of a key is named after its bytes or after their digest. -/
theorem keyName_cases (key : String) :
    (keyName key).toList = 'b' :: encode (bytesOf key) ++ storedEnding.toList
      ∨ (keyName key).toList
        = 'h' :: (Identifier.ofBytes (Digest.sha256 (bytesOf key))).toList ++ storedEnding.toList := by
  unfold keyName bytesName?
  dsimp only
  split
  next =>
    left
    rw [Option.getD_some, String.toList_append, String.toList_ofList]
  next =>
    right
    rw [Option.getD_none, digestName, String.toList_append, String.toList_append]
    rfl

/-- **Different keys have different files**, as far as the digest tells them apart. -/
theorem keyName_injOn {keys : Set String} (apart : Apart keys) : Set.InjOn keyName keys := by
  intro key inKeys key' inKeys' same
  have bytes (key : String) : ∀ byte ∈ bytesOf key, byte < 256 := fun _ => lt_of_mem_bytesOf
  have names := congrArg String.toList same
  rcases keyName_cases key with written | written <;>
    rcases keyName_cases key' with written' | written' <;>
    simp only [written, written', List.append_cancel_right_eq, List.cons_append, List.cons.injEq,
      Char.reduceEq, false_and, true_and] at names
  · exact bytesOf_injective (encode_injective (bytes key) (bytes key') names)
  · have digests := ofBytes_injective (fun _ => lt_of_mem_sha256) (fun _ => lt_of_mem_sha256)
      (String.toList_inj.mp names)
    exact apart key inKeys key' inKeys' digests

end DocStore.Files

/-!
## What the names of the files of keys are like

A name has to tell its key and to be one that every system takes.  `key_told_by_name` says both: two
texts with one name are the same, as far as the digest tells them apart, and the name for any key at
all is made of letters, digits and two marks, starts with one of two letters, and leaves room for a
temporary name beside it (`NamesFile`).

A key may come as units of sixteen bits that are no text, because half of a pair is missing; it then
has the name of the text in which the replacement character stands for that half (`unitsName`).
Such keys can share a name, so only texts are told apart.
-/

namespace DocStore.Files

open Digest.Base64Url (letter encode)
open Disk (Path)

/-! ### Keys as units -/

theorem joinPairs_charUnits_append (character : Char) (rest : List Nat) :
    Json.Quoted.joinPairs (Text.charUnits character ++ rest)
      = character :: Json.Quoted.joinPairs rest := by
  have valid := character.valid
  simp only [UInt32.isValidChar, Nat.isValidChar] at valid
  have code : character.val.toNat = character.toNat := rfl
  rw [code] at valid
  unfold Text.charUnits
  dsimp only
  split
  next basic =>
    have single := Json.Quoted.unitChar_toNat character
    have notLeading := Json.Quoted.isLeading_toNat character
    cases rest with
    | nil => simp [Json.Quoted.joinPairs, single]
    | cons unit rest => simp [Json.Quoted.joinPairs, single, notLeading]
  next wide =>
    have leading : Json.Quoted.isLeading (0xD800 + (character.toNat - 0x10000) / 0x400) = true := by
      simp only [Json.Quoted.isLeading, Bool.and_eq_true, decide_eq_true_eq]
      omega
    have trailing :
        Json.Quoted.isTrailing (0xDC00 + (character.toNat - 0x10000) % 0x400) = true := by
      simp only [Json.Quoted.isTrailing, Bool.and_eq_true, decide_eq_true_eq]
      omega
    have pair : Json.Quoted.pairChar (0xD800 + (character.toNat - 0x10000) / 0x400)
        (0xDC00 + (character.toNat - 0x10000) % 0x400) = character := by
      rw [Json.Quoted.pairChar, show 0x10000 + (0xD800 + (character.toNat - 0x10000) / 0x400 - 0xD800)
        * 0x400 + (0xDC00 + (character.toNat - 0x10000) % 0x400 - 0xDC00) = character.toNat by omega]
      exact Char.ofNat_toNat character
    simp only [List.cons_append, List.nil_append, Json.Quoted.joinPairs, leading, trailing,
      Bool.and_self, if_true, pair]

/-- The units of a text are read back as the text. -/
theorem joinPairs_units (text : List Char) :
    Json.Quoted.joinPairs (Text.units text) = text := by
  induction text with
  | nil => rfl
  | cons character rest ih => rw [Text.units_cons, joinPairs_charUnits_append, ih]

/-- The name of the file of a key that is given by its units; the replacement character stands for
each half of a pair that is alone. -/
def unitsName (units : List Nat) : String :=
  keyName (String.ofList (Json.Quoted.joinPairs units))

theorem unitsName_units (key : String) : unitsName (Text.units key.toList) = keyName key := by
  rw [unitsName, joinPairs_units, String.ofList_toList]

/-! ### The parts of a name -/

/-- Whether a character may stand before the ending in the name of the file of a key. -/
def isKeyLetter (character : Char) : Bool :=
  character.isAlphanum || character = '-' || character = '_'

theorem isKeyLetter_letter {value : Nat} (small : value < 64) : isKeyLetter (letter value) = true := by
  revert value
  decide

theorem isKeyLetter_hexDigit {value : Nat} (small : value < 16) :
    isKeyLetter (Json.Quoted.hexDigit value) = true := by
  revert value
  decide

/-- The name of the file of a key is one of two marks, letters, and the ending of stored files. -/
theorem exists_letters (key : String) :
    ∃ mark letters, (mark = 'b' ∨ mark = 'h') ∧ (∀ character ∈ letters, isKeyLetter character = true)
      ∧ keyName key = String.ofList (mark :: letters) ++ storedEnding := by
  rcases keyName_cases key with written | written
  · refine ⟨'b', encode (bytesOf key), .inl rfl, fun character member => ?_, ?_⟩
    · obtain ⟨value, small, rfl⟩ :=
        exists_letter_of_mem _ (fun _ => lt_of_mem_bytesOf) character member
      exact isKeyLetter_letter small
    · rw [← String.toList_inj, written, String.toList_append, String.toList_ofList]
  · refine ⟨'h', (Identifier.ofBytes (Digest.sha256 (bytesOf key))).toList, .inr rfl,
      fun character member => ?_, ?_⟩
    · obtain ⟨value, small, rfl⟩ := exists_digit_of_mem member
      exact isKeyLetter_hexDigit small
    · rw [← String.toList_inj, written, String.toList_append, String.toList_ofList]

/-! ### The temporary name beside it -/

/-- A file that is being written stands beside its place, under the temporary name. -/
theorem name_temporaryPath (directory : Path) {name : String} (nonempty : name ≠ "")
    (fresh : String) : (temporaryPath (directory.child name) fresh).name = temporaryName name fresh := by
  have named : temporaryName name fresh ≠ "" := by
    rw [temporaryName_eq]
    exact fun same => by simpa using congrArg String.toList same
  have own : (directory.child name).name = name := Path.name_concat _ nonempty
  rw [temporaryPath, own]
  exact Path.name_concat _ named

theorem Stored.size_temporary {name : String} (stored : Stored name) (fresh : String) :
    (temporaryName name fresh).utf8ByteSize ≤ maxStoredLength + fresh.utf8ByteSize + 6 := by
  have size := utf8ByteSize_of_isNameChar stored.harmless
  rw [String.ofList_toList] at size
  have short := stored.short
  have point : ".".utf8ByteSize = 1 := rfl
  have ending : ".tmp".utf8ByteSize = 4 := rfl
  simp only [temporaryName, String.utf8ByteSize_append, size, point, ending]
  omega

/-! ### All keys -/

/-- A name that every system takes for the file of a key. -/
structure NamesFile (name : String) : Prop where
  written : ∃ mark letters, (mark = 'b' ∨ mark = 'h')
    ∧ (∀ character ∈ letters, isKeyLetter character = true)
    ∧ name = String.ofList (mark :: letters) ++ ".json"
  seen : isHidden name = false
  nonempty : name ≠ ""
  notHere : name ≠ "."
  notAbove : name ≠ ".."
  leavesRoom : ∀ (directory : Path) (fresh : String), fresh.utf8ByteSize = 36 →
    (temporaryPath (directory.child name) fresh).name = "." ++ name ++ "." ++ fresh ++ ".tmp"
      ∧ ("." ++ name ++ "." ++ fresh ++ ".tmp").utf8ByteSize ≤ 255

theorem namesFile_keyName (key : String) : NamesFile (keyName key) where
  written := exists_letters key
  seen := (stored_keyName key).seen
  nonempty := (stored_keyName key).plain.nonempty
  notHere := (stored_keyName key).plain.notHere
  notAbove := (stored_keyName key).plain.notAbove
  leavesRoom directory fresh size := by
    have stored := stored_keyName key
    have room := stored.size_temporary fresh
    have most : maxStoredLength = 205 := by decide
    refine ⟨name_temporaryPath directory stored.plain.nonempty fresh, ?_⟩
    change (temporaryName (keyName key) fresh).utf8ByteSize ≤ 255
    omega

/-- **The name of a file tells its key, and suits every system.**  Two texts whose files have one
name are the same, as far as the digest tells them apart; and the name for any units at all, also
for units that are no text, is one that `NamesFile` describes. -/
theorem key_told_by_name {key key' : String}
    (apart : Digest.sha256 (bytesOf key) = Digest.sha256 (bytesOf key') → key = key') :
    unitsName (Text.units key.toList) = keyName key
      ∧ (unitsName (Text.units key.toList) = unitsName (Text.units key'.toList) → key = key')
      ∧ ∀ units, NamesFile (unitsName units) := by
  refine ⟨unitsName_units key, fun same => ?_, fun units => namesFile_keyName _⟩
  rw [unitsName_units, unitsName_units] at same
  have both : Apart {key, key'} := by
    rintro first (rfl | rfl) second (rfl | rfl) digests
    · rfl
    · exact apart digests
    · exact (apart digests.symm).symm
    · rfl
  exact keyName_injOn both (by simp) (by simp) same

/-- Two keys too long to be written out, with the same characters up to the last one, have different
files; half of a pair has one as well. -/
theorem long_keys_told :
    let key := String.ofList (List.replicate 150 'a')
    let key' := String.ofList (List.replicate 149 'a' ++ ['b'])
    bytesName? (bytesOf key) = none ∧ bytesName? (bytesOf key') = none
      ∧ (Digest.sha256 (bytesOf key) = Digest.sha256 (bytesOf key') → key = key')
      ∧ unitsName (Text.units key.toList) ≠ unitsName (Text.units key'.toList)
      ∧ NamesFile (unitsName [0xD83D]) := by
  intro key key'
  have differ : key ≠ key' := by decide +kernel
  have apart : Digest.sha256 (bytesOf key) = Digest.sha256 (bytesOf key') → key = key' :=
    fun same => absurd same (by decide +kernel)
  obtain ⟨-, told, suits⟩ := key_told_by_name apart
  exact ⟨by decide +kernel, by decide +kernel, apart, fun same => differ (told same),
    suits [0xD83D]⟩

end DocStore.Files
