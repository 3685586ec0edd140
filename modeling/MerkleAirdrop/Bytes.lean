/-
  MerkleAirdrop.Bytes
  ───────────────────
  **BYTE STRINGS: LITTLE-ENDIAN NUMBERS AND BLOCKS OF A FIXED LENGTH.**

  A byte string is a `List UInt8`.  Numbers enter it lowest byte first:
  `Bytes.ofNat k n` writes `n` in `k` bytes and `Bytes.toNat` reads any
  number of bytes back.  A `Block n` is a byte string that carries the proof
  of its length: keys and hashes are `Block 32`, the tags in front of records
  are `Block 8`.

      Bytes.ofNat_toNat   ofNat bs.length (toNat bs) = bs
-/
namespace MerkleAirdrop

/-! ## §1. Little-endian numbers. -/

namespace Bytes

/-- The number `n` in `k` bytes, lowest byte first; higher bytes of `n` are
dropped. -/
def ofNat : Nat → Nat → List UInt8
  | 0, _ => []
  | k + 1, n => UInt8.ofNat n :: ofNat k (n / 256)

/-- The number that a byte string writes lowest byte first. -/
def toNat : List UInt8 → Nat
  | [] => 0
  | b :: rest => b.toNat + 256 * toNat rest

@[simp] theorem length_ofNat (k n : Nat) : (ofNat k n).length = k := by
  induction k generalizing n with
  | zero => rfl
  | succ k ih => simp [ofNat, ih]

theorem ofNat_toNat (bs : List UInt8) : ofNat bs.length (toNat bs) = bs := by
  induction bs with
  | nil => rfl
  | cons b rest ih =>
    have hb := b.toNat_lt
    have hdiv : (b.toNat + 256 * toNat rest) / 256 = toNat rest := by omega
    have hmod : UInt8.ofNat (b.toNat + 256 * toNat rest) = b := by
      apply UInt8.toNat_inj.1
      simp
    simp [ofNat, toNat, hdiv, hmod, ih]

end Bytes

/-! ## §2. Blocks. -/

/-- A byte string of exactly `n` bytes. -/
structure Block (n : Nat) where
  /-- The bytes in order. -/
  toList : List UInt8
  /-- There are `n` of them. -/
  length_toList : toList.length = n
  deriving DecidableEq

namespace Block

attribute [simp] length_toList

@[ext] theorem ext {n : Nat} {a b : Block n} (h : a.toList = b.toList) : a = b := by
  cases a; cases b; cases h; rfl

/-- The block of these bytes, if there are `n` of them. -/
def ofList? (n : Nat) (bs : List UInt8) : Option (Block n) :=
  if h : bs.length = n then some ⟨bs, h⟩ else none

@[simp] theorem ofList?_toList {n : Nat} (b : Block n) : ofList? n b.toList = some b := by
  simp [ofList?]

theorem ofList?_eq_some_iff {n : Nat} {bs : List UInt8} {b : Block n} :
    ofList? n bs = some b ↔ b.toList = bs := by
  constructor
  · intro h
    unfold ofList? at h
    split at h
    · cases h; rfl
    · cases h
  · rintro rfl
    exact ofList?_toList b

theorem ofNat_toNat {n : Nat} (b : Block n) : Bytes.ofNat n (Bytes.toNat b.toList) = b.toList := by
  obtain ⟨bytes, rfl⟩ := b
  exact Bytes.ofNat_toNat bytes

/-- `n` zero bytes. -/
def zero (n : Nat) : Block n := ⟨List.replicate n 0, List.length_replicate⟩

instance {n : Nat} : Inhabited (Block n) := ⟨zero n⟩

/-- The first `n` bytes, if there are so many. -/
def take? (n : Nat) (bs : List UInt8) : Option (Block n) := ofList? n (bs.take n)

end Block

/-- Thirty-two bytes that stand for an account, a program or a key. -/
abbrev Address := Block 32

/-- A node of a Merkle tree. -/
abbrev Hash := Block 32

/-- The eight bytes that tell records and instructions apart. -/
abbrev Discriminator := Block 8

end MerkleAirdrop
