/-
  MerkleAirdrop.Layout.Value
  ──────────────────────────
  **THE VALUES THAT FIELDS HOLD.**

  A value knows which of the scalar kinds it is; lists serve arrays and
  vectors alike and do not say of what kind their elements are.
-/
import MerkleAirdrop.Bytes

namespace MerkleAirdrop

/-- The value of a field, read or about to be written. -/
inductive Value where
  | u8 (v : UInt8)
  | u64 (v : UInt64)
  | i64 (v : Int64)
  | bool (v : Bool)
  | bytes (v : List UInt8)
  | pubkey (v : Address)
  | list (items : List Value)

namespace Value

/-! Views: what the value holds, if it is of the sort asked for. -/

/-- The byte that the value holds. -/
def asU8? : Value → Option UInt8
  | .u8 v => some v
  | _ => none

/-- The unsigned number that the value holds. -/
def asU64? : Value → Option UInt64
  | .u64 v => some v
  | _ => none

/-- The signed number that the value holds. -/
def asI64? : Value → Option Int64
  | .i64 v => some v
  | _ => none

/-- The truth value that the value holds. -/
def asBool? : Value → Option Bool
  | .bool v => some v
  | _ => none

/-- The address that the value holds. -/
def asPubkey? : Value → Option Address
  | .pubkey v => some v
  | _ => none

/-- Exactly `n` bytes. -/
def asBlock? (n : Nat) : Value → Option (Block n)
  | .bytes v => Block.ofList? n v
  | _ => none

/-- A list of thirty-two-byte strings; the empty list is one. -/
def asHashes? : Value → Option (List Hash)
  | .list items => items.mapM (asBlock? 32)
  | _ => none

end Value

/-- An unsigned number in eight bytes, lowest first. -/
def bytesOfU64 (v : UInt64) : List UInt8 := Bytes.ofNat 8 v.toNat

/-- A signed number in eight bytes, lowest first, in two's complement. -/
def bytesOfI64 (v : Int64) : List UInt8 := bytesOfU64 v.toUInt64

/-- The unsigned number in eight bytes. -/
def u64OfBytes (bs : List UInt8) : UInt64 := UInt64.ofNat (Bytes.toNat bs)

/-- The signed number in eight bytes. -/
def i64OfBytes (bs : List UInt8) : Int64 := (u64OfBytes bs).toInt64

@[simp] theorem length_bytesOfU64 (v : UInt64) : (bytesOfU64 v).length = 8 :=
  Bytes.length_ofNat 8 v.toNat

@[simp] theorem length_bytesOfI64 (v : Int64) : (bytesOfI64 v).length = 8 :=
  length_bytesOfU64 v.toUInt64

end MerkleAirdrop
