/-!
# The digest SHA-256

The digest of a text of bytes.  The bytes are padded to blocks of sixteen words of 32 bits;
each block is extended to a schedule of 64 words and mixed into a state of eight words.
The constants are the leading bits of the fractional parts of cube roots of the first primes; the
words are natural numbers below `2 ^ 32`.
-/

set_option autoImplicit false

namespace DocStore.Digest

/-- How many values a word has. -/
def wordLimit : Nat := 4294967296

/-- The sum of two words. -/
def add (first second : Nat) : Nat :=
  (first + second) % wordLimit

/-- A word rotated to the right. -/
def rotate (count word : Nat) : Nat :=
  (word >>> count) ||| ((word <<< (32 - count)) % wordLimit)

/-- The complement of a word. -/
def complement (word : Nat) : Nat :=
  wordLimit - 1 - word

/-- The round constants. -/
def constants : List Nat :=
  [0x428a2f98, 0x71374491, 0xb5c0fbcf, 0xe9b5dba5, 0x3956c25b, 0x59f111f1, 0x923f82a4, 0xab1c5ed5,
   0xd807aa98, 0x12835b01, 0x243185be, 0x550c7dc3, 0x72be5d74, 0x80deb1fe, 0x9bdc06a7, 0xc19bf174,
   0xe49b69c1, 0xefbe4786, 0x0fc19dc6, 0x240ca1cc, 0x2de92c6f, 0x4a7484aa, 0x5cb0a9dc, 0x76f988da,
   0x983e5152, 0xa831c66d, 0xb00327c8, 0xbf597fc7, 0xc6e00bf3, 0xd5a79147, 0x06ca6351, 0x14292967,
   0x27b70a85, 0x2e1b2138, 0x4d2c6dfc, 0x53380d13, 0x650a7354, 0x766a0abb, 0x81c2c92e, 0x92722c85,
   0xa2bfe8a1, 0xa81a664b, 0xc24b8b70, 0xc76c51a3, 0xd192e819, 0xd6990624, 0xf40e3585, 0x106aa070,
   0x19a4c116, 0x1e376c08, 0x2748774c, 0x34b0bcb5, 0x391c0cb3, 0x4ed8aa4a, 0x5b9cca4f, 0x682e6ff3,
   0x748f82ee, 0x78a5636f, 0x84c87814, 0x8cc70208, 0x90befffa, 0xa4506ceb, 0xbef9a3f7, 0xc67178f2]

/-- The eight words of a state. -/
structure State where
  a : Nat
  b : Nat
  c : Nat
  d : Nat
  e : Nat
  f : Nat
  g : Nat
  h : Nat
deriving DecidableEq

/-- The state before the first block. -/
def State.start : State :=
  ⟨0x6a09e667, 0xbb67ae85, 0x3c6ef372, 0xa54ff53a, 0x510e527f, 0x9b05688c, 0x1f83d9ab, 0x5be0cd19⟩

/-- The words of a state. -/
def State.words (state : State) : List Nat :=
  [state.a, state.b, state.c, state.d, state.e, state.f, state.g, state.h]

/-- The sum of two states, word by word. -/
def State.add (first second : State) : State :=
  ⟨Digest.add first.a second.a, Digest.add first.b second.b, Digest.add first.c second.c,
   Digest.add first.d second.d, Digest.add first.e second.e, Digest.add first.f second.f,
   Digest.add first.g second.g, Digest.add first.h second.h⟩

/-- One round, with the sum of a schedule word and a round constant. -/
def mix (state : State) (input : Nat) : State :=
  let turned := rotate 6 state.e ^^^ rotate 11 state.e ^^^ rotate 25 state.e
  let chosen := (state.e &&& state.f) ^^^ (complement state.e &&& state.g)
  let first := add (add (add state.h turned) chosen) input
  let turned' := rotate 2 state.a ^^^ rotate 13 state.a ^^^ rotate 22 state.a
  let majority := (state.a &&& state.b) ^^^ (state.a &&& state.c) ^^^ (state.b &&& state.c)
  let second := add turned' majority
  ⟨add first second, state.a, state.b, state.c, add state.d first, state.e, state.f, state.g⟩

/-- The next word of a schedule, of which the last sixteen words are given, last first. -/
def nextWord (latest : List Nat) : Nat :=
  let word (back : Nat) : Nat := (latest[back - 1]?).getD 0
  let early := rotate 7 (word 15) ^^^ rotate 18 (word 15) ^^^ (word 15 >>> 3)
  let late := rotate 17 (word 2) ^^^ rotate 19 (word 2) ^^^ (word 2 >>> 10)
  add (add (add (word 16) early) (word 7)) late

/-- A schedule, last word first, extended by a number of words. -/
def extend : Nat → List Nat → List Nat
  | 0, reversed => reversed
  | count + 1, reversed => extend count (nextWord (reversed.take 16) :: reversed)

/-- The schedule of a block of sixteen words. -/
def schedule (block : List Nat) : List Nat :=
  (extend 48 block.reverse).reverse

/-- The state after a block. -/
def absorb (state : State) (block : List Nat) : State :=
  state.add (((schedule block).zipWith add constants).foldl mix state)

/-- The bytes of a whole number, most significant first. -/
def bigEndian (count value : Nat) : List Nat :=
  (List.range count).map fun index => value / Nat.pow 256 (count - 1 - index) % 256

/-- The padded bytes: a mark, zeros, and the length in bits as eight bytes. -/
def pad (bytes : List Nat) : List Nat :=
  let zeros := (119 - bytes.length % 64) % 64
  bytes ++ 0x80 :: List.replicate zeros 0 ++ bigEndian 8 (8 * bytes.length)

/-- A list in pieces of a given size; `budget` bounds the number of pieces. -/
def pieces (size : Nat) : Nat → List Nat → List (List Nat)
  | 0, _ => []
  | _, [] => []
  | budget + 1, list => list.take size :: pieces size budget (list.drop size)

/-- The word of four bytes. -/
def word (bytes : List Nat) : Nat :=
  bytes.foldl (fun value byte => 256 * value + byte) 0

/-- The digest of bytes, as 32 bytes. -/
def sha256 (bytes : List Nat) : List Nat :=
  let padded := pad bytes
  let words := (pieces 4 padded.length padded).map word
  let state := (pieces 16 words.length words).foldl absorb .start
  state.words.flatMap (bigEndian 4)

end DocStore.Digest
