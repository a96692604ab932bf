import Mathlib.Algebra.Order.Ring.Nat
import Cats.Codec.Hex

/-!
# The SHA-256 digest of a byte string

Words are natural numbers below `2 ^ 32`.  The message schedule is kept as a
sliding window of sixteen words, so each of the sixty-four rounds takes the
head of the window and appends the word that follows it.
-/

namespace Cats

namespace Sha256

def rotateRight (word count : Nat) : Nat :=
  word >>> count ||| (word <<< (32 - count)) % 4294967296

def roundConstants : List Nat :=
  [0x428a2f98, 0x71374491, 0xb5c0fbcf, 0xe9b5dba5,
   0x3956c25b, 0x59f111f1, 0x923f82a4, 0xab1c5ed5,
   0xd807aa98, 0x12835b01, 0x243185be, 0x550c7dc3,
   0x72be5d74, 0x80deb1fe, 0x9bdc06a7, 0xc19bf174,
   0xe49b69c1, 0xefbe4786, 0x0fc19dc6, 0x240ca1cc,
   0x2de92c6f, 0x4a7484aa, 0x5cb0a9dc, 0x76f988da,
   0x983e5152, 0xa831c66d, 0xb00327c8, 0xbf597fc7,
   0xc6e00bf3, 0xd5a79147, 0x06ca6351, 0x14292967,
   0x27b70a85, 0x2e1b2138, 0x4d2c6dfc, 0x53380d13,
   0x650a7354, 0x766a0abb, 0x81c2c92e, 0x92722c85,
   0xa2bfe8a1, 0xa81a664b, 0xc24b8b70, 0xc76c51a3,
   0xd192e819, 0xd6990624, 0xf40e3585, 0x106aa070,
   0x19a4c116, 0x1e376c08, 0x2748774c, 0x34b0bcb5,
   0x391c0cb3, 0x4ed8aa4a, 0x5b9cca4f, 0x682e6ff3,
   0x748f82ee, 0x78a5636f, 0x84c87814, 0x8cc70208,
   0x90befffa, 0xa4506ceb, 0xbef9a3f7, 0xc67178f2]

/-- The eight working variables. -/
structure State where
  a : Nat
  b : Nat
  c : Nat
  d : Nat
  e : Nat
  f : Nat
  g : Nat
  h : Nat

def State.initial : State :=
  ⟨0x6a09e667, 0xbb67ae85, 0x3c6ef372, 0xa54ff53a,
   0x510e527f, 0x9b05688c, 0x1f83d9ab, 0x5be0cd19⟩

def State.add (left right : State) : State :=
  ⟨(left.a + right.a) % 4294967296, (left.b + right.b) % 4294967296,
   (left.c + right.c) % 4294967296, (left.d + right.d) % 4294967296,
   (left.e + right.e) % 4294967296, (left.f + right.f) % 4294967296,
   (left.g + right.g) % 4294967296, (left.h + right.h) % 4294967296⟩

/-- The schedule word that follows a window of sixteen. -/
def nextWord : List Nat → Nat
  | w0 :: w1 :: _ :: _ :: _ :: _ :: _ :: _ :: _ :: w9 ::
      _ :: _ :: _ :: _ :: w14 :: _ =>
      let small0 := rotateRight w1 7 ^^^ rotateRight w1 18 ^^^ (w1 >>> 3)
      let small1 := rotateRight w14 17 ^^^ rotateRight w14 19 ^^^ (w14 >>> 10)
      (w0 + small0 + w9 + small1) % 4294967296
  | _ => 0

def round (state : State) (constant word : Nat) : State :=
  let big1 := rotateRight state.e 6 ^^^ rotateRight state.e 11 ^^^
    rotateRight state.e 25
  let choice := (state.e &&& state.f) ^^^
    ((4294967295 - state.e) &&& state.g)
  let first := state.h + big1 + choice + constant + word
  let big0 := rotateRight state.a 2 ^^^ rotateRight state.a 13 ^^^
    rotateRight state.a 22
  let majority := (state.a &&& state.b) ^^^ (state.a &&& state.c) ^^^
    (state.b &&& state.c)
  ⟨(first + big0 + majority) % 4294967296, state.a, state.b, state.c,
   (state.d + first) % 4294967296, state.e, state.f, state.g⟩

def rounds : List Nat → List Nat → State → State
  | [], _, state => state
  | _ :: _, [], state => state
  | constant :: constants, word :: window, state =>
      rounds constants (window ++ [nextWord (word :: window)])
        (round state constant word)

def compress (state : State) (block : List Nat) : State :=
  state.add (rounds roundConstants block state)

def compressAll : Nat → List Nat → State → State
  | 0, _, state => state
  | count + 1, words, state =>
      compressAll count (words.drop 16) (compress state (words.take 16))

/-- The big-endian bytes of a number, `width` of them. -/
def bigEndian (number : Nat) : Nat → List Nat
  | 0 => []
  | width + 1 => number / 256 ^ width % 256 :: bigEndian number width

def pad (message : Bytes) : List Nat :=
  message.map UInt8.toNat ++ [128] ++
    List.replicate ((119 - message.length % 64) % 64) 0 ++
    bigEndian (8 * message.length) 8

def words : List Nat → List Nat
  | first :: second :: third :: fourth :: rest =>
      (first * 16777216 + second * 65536 + third * 256 + fourth) :: words rest
  | _ => []

def State.output (state : State) : List Nat :=
  bigEndian state.a 4 ++ bigEndian state.b 4 ++ bigEndian state.c 4 ++
    bigEndian state.d 4 ++ bigEndian state.e 4 ++ bigEndian state.f 4 ++
    bigEndian state.g 4 ++ bigEndian state.h 4

end Sha256

/-- `hashlib.sha256(message).digest()`. -/
def sha256 (message : Bytes) : Bytes :=
  let schedule := Sha256.words (Sha256.pad message)
  ((Sha256.compressAll (schedule.length / 16) schedule
    Sha256.State.initial).output).map UInt8.ofNat

theorem Sha256.length_bigEndian (number width : Nat) :
    (Sha256.bigEndian number width).length = width := by
  induction width with
  | zero => rfl
  | succ width induction => simp [Sha256.bigEndian, induction]

@[simp] theorem length_sha256 (message : Bytes) :
    (sha256 message).length = 32 := by
  simp [sha256, Sha256.State.output, Sha256.length_bigEndian]

example : Hex.encode (sha256 [97, 98, 99]) =
    "ba7816bf8f01cfea414140de5dae2223b00361a396177a9cb410ff61f20015ad".toList := by
  decide +kernel

end Cats
