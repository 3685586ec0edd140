/-
  MerkleAirdrop.Sha256
  ────────────────────
  **THE HASH FUNCTION SHA-256.**

  A message is padded to whole blocks of sixty-four bytes: one byte `0x80`,
  zeros, and the length in bits as eight bytes, highest first.  Each block is
  stretched from sixteen to sixty-four words and worked into a state of eight
  words, which at the end is the digest.

  The stretching is a window of sixteen words that slides along the sequence:
  the next word is made from four places of the window.
-/
import MerkleAirdrop.Bytes

namespace MerkleAirdrop.Sha256

/-! ## §1. Words. -/

/-- The word turned right by `n` bits. -/
def rotate (x n : UInt32) : UInt32 := (x >>> n) ||| (x <<< (32 - n))

/-- The number `n` in `k` bytes, highest first. -/
def bigEndian (k n : Nat) : List UInt8 := (Bytes.ofNat k n).reverse

/-- The words in a byte string, four bytes each, highest first; a remainder
of fewer than four bytes is left out. -/
def words : List UInt8 → List UInt32
  | a :: b :: c :: d :: rest => UInt32.ofNat (Bytes.toNat [d, c, b, a]) :: words rest
  | _ => []

/-! ## §2. Blocks. -/

/-- The message made up to whole blocks. -/
def pad (message : List UInt8) : List UInt8 :=
  message ++ [0x80] ++ List.replicate ((119 - message.length % 64) % 64) 0
    ++ bigEndian 8 (8 * message.length)

/-- The next word of the stretched block, from the window of the last
sixteen. -/
def nextWord (window : List UInt32) : UInt32 :=
  word 0 + small0 (word 1) + word 9 + small1 (word 14)
where
  word (i : Nat) : UInt32 := window.getD i 0
  small0 (x : UInt32) : UInt32 := rotate x 7 ^^^ rotate x 18 ^^^ (x >>> 3)
  small1 (x : UInt32) : UInt32 := rotate x 17 ^^^ rotate x 19 ^^^ (x >>> 10)

/-- The first `n` words of the sequence that starts with the window. -/
def stretch : Nat → List UInt32 → List UInt32
  | n + 1, w :: window => w :: stretch n (window ++ [nextWord (w :: window)])
  | _, _ => []

/-! ## §3. The state. -/

/-- The eight words that a message is worked into. -/
structure State where
  a : UInt32
  b : UInt32
  c : UInt32
  d : UInt32
  e : UInt32
  f : UInt32
  g : UInt32
  h : UInt32

namespace State

/-- The state before the first block. -/
def initial : State :=
  ⟨0x6a09e667, 0xbb67ae85, 0x3c6ef372, 0xa54ff53a,
   0x510e527f, 0x9b05688c, 0x1f83d9ab, 0x5be0cd19⟩

/-- Word by word sum. -/
def add (s t : State) : State :=
  ⟨s.a + t.a, s.b + t.b, s.c + t.c, s.d + t.d, s.e + t.e, s.f + t.f, s.g + t.g, s.h + t.h⟩

/-- The eight words in order. -/
def toList (s : State) : List UInt32 := [s.a, s.b, s.c, s.d, s.e, s.f, s.g, s.h]

/-- One round with a round constant and a word of the stretched block. -/
def round (s : State) (constant word : UInt32) : State :=
  let big1 := rotate s.e 6 ^^^ rotate s.e 11 ^^^ rotate s.e 25
  let choice := (s.e &&& s.f) ^^^ (~~~s.e &&& s.g)
  let first := s.h + big1 + choice + constant + word
  let big0 := rotate s.a 2 ^^^ rotate s.a 13 ^^^ rotate s.a 22
  let majority := (s.a &&& s.b) ^^^ (s.a &&& s.c) ^^^ (s.b &&& s.c)
  ⟨first + (big0 + majority), s.a, s.b, s.c, s.d + first, s.e, s.f, s.g⟩

end State

/-- One constant for each round. -/
def roundConstants : List UInt32 :=
  [0x428a2f98, 0x71374491, 0xb5c0fbcf, 0xe9b5dba5, 0x3956c25b, 0x59f111f1, 0x923f82a4, 0xab1c5ed5,
   0xd807aa98, 0x12835b01, 0x243185be, 0x550c7dc3, 0x72be5d74, 0x80deb1fe, 0x9bdc06a7, 0xc19bf174,
   0xe49b69c1, 0xefbe4786, 0x0fc19dc6, 0x240ca1cc, 0x2de92c6f, 0x4a7484aa, 0x5cb0a9dc, 0x76f988da,
   0x983e5152, 0xa831c66d, 0xb00327c8, 0xbf597fc7, 0xc6e00bf3, 0xd5a79147, 0x06ca6351, 0x14292967,
   0x27b70a85, 0x2e1b2138, 0x4d2c6dfc, 0x53380d13, 0x650a7354, 0x766a0abb, 0x81c2c92e, 0x92722c85,
   0xa2bfe8a1, 0xa81a664b, 0xc24b8b70, 0xc76c51a3, 0xd192e819, 0xd6990624, 0xf40e3585, 0x106aa070,
   0x19a4c116, 0x1e376c08, 0x2748774c, 0x34b0bcb5, 0x391c0cb3, 0x4ed8aa4a, 0x5b9cca4f, 0x682e6ff3,
   0x748f82ee, 0x78a5636f, 0x84c87814, 0x8cc70208, 0x90befffa, 0xa4506ceb, 0xbef9a3f7, 0xc67178f2]

/-- Works one block of sixteen words into the state. -/
def absorb (s : State) (block : List UInt32) : State :=
  s.add ((roundConstants.zip (stretch 64 block)).foldl (fun s (k, w) => s.round k w) s)

/-- Works `n` blocks into the state. -/
def absorbBlocks : Nat → State → List UInt32 → State
  | 0, s, _ => s
  | n + 1, s, ws => absorbBlocks n (absorb s (ws.take 16)) (ws.drop 16)

/-! ## §4. The digest. -/

/-- The thirty-two bytes of the state. -/
def State.toHash (s : State) : Hash :=
  ⟨s.toList.flatMap fun w => bigEndian 4 w.toNat, by simp [toList, bigEndian]⟩

/-- The digest of a message. -/
def hash (message : List UInt8) : Hash :=
  let ws := words (pad message)
  (absorbBlocks (ws.length / 16) .initial ws).toHash

end MerkleAirdrop.Sha256
