/-
# SHA-256

The hash function as its standard defines it, on numbers below `2 ^ 32`: the
message is padded to blocks of sixteen words, and each block is mixed into a state
of eight words in sixty-four rounds.  Its digests have 32 bytes, which makes it a
`Digest`; nothing else about it is used.
-/

import GitEventsRunner.Lib.Digest
import Mathlib.Algebra.Group.Nat.Defs

namespace GitEventsRunner.Lib

namespace Sha256

/-- Number of values of a word. -/
def wordSize : ℕ := 2 ^ 32

/-! ## Operations on words -/

/-- Rotate a word to the right. -/
def rotr (n x : ℕ) : ℕ := (x >>> n) ||| ((x <<< (32 - n)) % wordSize)

def ch (e f g : ℕ) : ℕ := (e &&& f) ^^^ ((wordSize - 1 - e) &&& g)

def maj (a b c : ℕ) : ℕ := (a &&& b) ^^^ (a &&& c) ^^^ (b &&& c)

def upperSigma0 (x : ℕ) : ℕ := rotr 2 x ^^^ rotr 13 x ^^^ rotr 22 x

def upperSigma1 (x : ℕ) : ℕ := rotr 6 x ^^^ rotr 11 x ^^^ rotr 25 x

def lowerSigma0 (x : ℕ) : ℕ := rotr 7 x ^^^ rotr 18 x ^^^ (x >>> 3)

def lowerSigma1 (x : ℕ) : ℕ := rotr 17 x ^^^ rotr 19 x ^^^ (x >>> 10)

/-! ## Constants -/

/-- The first 64 primes: no prime up to 17 divides them properly. -/
def primes : List ℕ :=
  (List.range 312).filter fun n => 2 ≤ n && (List.range 18).all fun d =>
    d < 2 || n ≤ d || n % d != 0

/-- The integer part of a `k`-th root, one bit after the other from the highest. -/
def root (k x : ℕ) : ℕ → ℕ → ℕ
  | 0, r => r
  | bit + 1, r => if (r + 2 ^ bit) ^ k ≤ x then root k x bit (r + 2 ^ bit) else root k x bit r

/-- The first 32 bits behind the point of the `k`-th root of a number. -/
def rootFraction (k n : ℕ) : ℕ := root k (n * wordSize ^ k) 36 0 % wordSize

/-- The constant of each round comes from the cube root of a prime. -/
def constants : List ℕ := primes.map (rootFraction 3)

/-! ## Blocks -/

/-- The eight words that are carried from block to block. -/
structure State where
  a : ℕ
  b : ℕ
  c : ℕ
  d : ℕ
  e : ℕ
  f : ℕ
  g : ℕ
  h : ℕ

/-- The state before the first block comes from the square roots of primes. -/
def initial : State where
  a := rootFraction 2 2
  b := rootFraction 2 3
  c := rootFraction 2 5
  d := rootFraction 2 7
  e := rootFraction 2 11
  f := rootFraction 2 13
  g := rootFraction 2 17
  h := rootFraction 2 19

/-- One round, with its constant and its word of the schedule. -/
def round (s : State) (k w : ℕ) : State :=
  let t1 := s.h + upperSigma1 s.e + ch s.e s.f s.g + k + w
  let t2 := upperSigma0 s.a + maj s.a s.b s.c
  ⟨(t1 + t2) % wordSize, s.a, s.b, s.c, (s.d + t1) % wordSize, s.e, s.f, s.g⟩

/-- The word of the schedule that follows sixteen others. -/
def nextWord (window : List ℕ) : ℕ :=
  (window.getD 0 0 + lowerSigma0 (window.getD 1 0) + window.getD 9 0 +
    lowerSigma1 (window.getD 14 0)) % wordSize

/-- The rounds with the given constants; the window holds the next sixteen words
of the schedule. -/
def rounds : List ℕ → List ℕ → State → State
  | [], _, s => s
  | k :: ks, window, s =>
      rounds ks (window.drop 1 ++ [nextWord window]) (round s k (window.getD 0 0))

def State.add (s t : State) : State :=
  ⟨(s.a + t.a) % wordSize, (s.b + t.b) % wordSize, (s.c + t.c) % wordSize,
   (s.d + t.d) % wordSize, (s.e + t.e) % wordSize, (s.f + t.f) % wordSize,
   (s.g + t.g) % wordSize, (s.h + t.h) % wordSize⟩

/-- Mix one block into the state. -/
def compress (s : State) (block : List ℕ) : State := s.add (rounds constants block s)

/-- Mix a number of blocks into the state. -/
def compressAll : ℕ → List ℕ → State → State
  | 0, _, s => s
  | n + 1, words, s => compressAll n (words.drop 16) (compress s (words.take 16))

/-! ## Messages -/

/-- The last bytes of a number, the most significant first. -/
def bigEndian : ℕ → ℕ → Bytes
  | 0, _ => []
  | size + 1, x => bigEndian size (x / 256) ++ [UInt8.ofNat x]

/-- The words of a padded message. -/
def words : Bytes → List ℕ
  | w :: x :: y :: z :: rest =>
      (((w.toNat * 256 + x.toNat) * 256 + y.toNat) * 256 + z.toNat) :: words rest
  | _ => []

/-- The message with a marker, zeros and its length in bits, up to whole blocks. -/
def pad (message : Bytes) : Bytes :=
  message ++ [0x80] ++ List.replicate ((119 - message.length % 64) % 64) 0 ++
    bigEndian 8 (8 * message.length)

/-- The digest in a state. -/
def State.toBytes (s : State) : Bytes :=
  [s.a, s.b, s.c, s.d, s.e, s.f, s.g, s.h].flatMap (bigEndian 4)

def hash (message : Bytes) : Bytes :=
  (compressAll ((pad message).length / 64) (words (pad message)) initial).toBytes

theorem length_bigEndian (size x : ℕ) : (bigEndian size x).length = size := by
  induction size generalizing x with
  | zero => rfl
  | succ size ih => rw [bigEndian, List.length_append, ih, List.length_singleton]

theorem length_toBytes (s : State) : s.toBytes.length = 32 := by
  simp [State.toBytes, length_bigEndian]

/-- SHA-256 as a digest. -/
def digest : Digest where
  size := 32
  hash := hash
  size_pos := by decide
  length_hash _ := length_toBytes _

/-- The digest of `abc`. -/
example : Hex.encode (hash [97, 98, 99]) =
    "ba7816bf8f01cfea414140de5dae2223b00361a396177a9cb410ff61f20015ad" := by
  decide +kernel

end Sha256

end GitEventsRunner.Lib
