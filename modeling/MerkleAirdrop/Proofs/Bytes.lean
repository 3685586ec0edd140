/-
  MerkleAirdrop.Proofs.Bytes
  ──────────────────────────
  **NUMBERS ARE READ BACK FROM THEIR BYTES, AND BYTES FROM THEIR NUMBERS.**

      Bytes.toNat_ofNat       n < 256 ^ k → toNat (ofNat k n) = n
      u64OfBytes_bytesOfU64   the same of a 64-bit number in eight bytes
      bytesOfU64_u64OfBytes   eight bytes are those of their number
-/
import MerkleAirdrop.Layout.Value
import Mathlib.Algebra.Group.Nat.Defs

namespace MerkleAirdrop

/-! ## §1. Bytes as a number. -/

namespace Bytes

theorem toNat_ofNat {k n : Nat} (h : n < 256 ^ k) : toNat (ofNat k n) = n := by
  induction k generalizing n with
  | zero => simp only [Nat.pow_zero] at h; simp only [ofNat, toNat]; omega
  | succ k ih =>
    have hk : n / 256 < 256 ^ k := by
      rw [Nat.pow_succ] at h
      exact Nat.div_lt_of_lt_mul (by omega)
    have hb : (UInt8.ofNat n).toNat = n % 256 := by simp
    rw [ofNat, toNat, ih hk, hb]
    omega

theorem toNat_lt (bs : List UInt8) : toNat bs < 256 ^ bs.length := by
  induction bs with
  | nil => simp [toNat]
  | cons b rest ih =>
    have hb := b.toNat_lt
    simp only [toNat, List.length_cons, Nat.pow_succ]
    omega

end Bytes

theorem Block.toNat_lt {n : Nat} (b : Block n) : Bytes.toNat b.toList < 256 ^ n := by
  obtain ⟨bytes, rfl⟩ := b
  exact Bytes.toNat_lt bytes

/-! ## §2. Numbers of 64 bits. -/

theorem u64OfBytes_bytesOfU64 (v : UInt64) : u64OfBytes (bytesOfU64 v) = v := by
  have hv : v.toNat < 256 ^ 8 := v.toNat_lt
  rw [u64OfBytes, bytesOfU64, Bytes.toNat_ofNat hv, UInt64.ofNat_toNat]

theorem bytesOfU64_injective {v v' : UInt64} (h : bytesOfU64 v = bytesOfU64 v') : v = v' := by
  rw [← u64OfBytes_bytesOfU64 v, h, u64OfBytes_bytesOfU64]

theorem i64OfBytes_bytesOfI64 (v : Int64) : i64OfBytes (bytesOfI64 v) = v := by
  rw [i64OfBytes, bytesOfI64, u64OfBytes_bytesOfU64]
  rfl

theorem bytesOfU64_u64OfBytes {bs : List UInt8} (h : bs.length = 8) :
    bytesOfU64 (u64OfBytes bs) = bs := by
  have hlt : Bytes.toNat bs < 2 ^ 64 := by
    have hbs := Bytes.toNat_lt bs
    rwa [h] at hbs
  rw [bytesOfU64, u64OfBytes, UInt64.toNat_ofNat_of_lt' hlt, ← h, Bytes.ofNat_toNat]

theorem bytesOfI64_i64OfBytes {bs : List UInt8} (h : bs.length = 8) :
    bytesOfI64 (i64OfBytes bs) = bs := by
  show bytesOfU64 (u64OfBytes bs).toInt64.toUInt64 = bs
  rw [show (u64OfBytes bs).toInt64.toUInt64 = u64OfBytes bs from rfl,
    bytesOfU64_u64OfBytes h]

end MerkleAirdrop
