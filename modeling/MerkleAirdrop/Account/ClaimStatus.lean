/-
  MerkleAirdrop.Account.ClaimStatus
  ─────────────────────────────────
  **THE ACCOUNT OF A CLAIMANT AT A DISTRIBUTOR.**
-/
import MerkleAirdrop.Derivation
import MerkleAirdrop.Schema.Basic

namespace MerkleAirdrop

/-- What a claimant has claimed from a distributor. -/
structure ClaimStatus where
  claimant : Address
  /-- What vests over time. -/
  lockedAmount : UInt64
  /-- What of it has been withdrawn. -/
  lockedAmountWithdrawn : UInt64
  /-- What was paid out at once. -/
  unlockedAmount : UInt64
  deriving DecidableEq, Inhabited

instance : Record ClaimStatus where
  name := "ClaimStatus"
  discriminator := ⟨[22, 183, 249, 157, 247, 95, 150, 96], rfl⟩
  layout := ⟨[
    ⟨"claimant", .pubkey⟩,
    ⟨"locked_amount", .u64⟩,
    ⟨"locked_amount_withdrawn", .u64⟩,
    ⟨"unlocked_amount", .u64⟩]⟩
  toValues r := [
    .pubkey r.claimant,
    .u64 r.lockedAmount,
    .u64 r.lockedAmountWithdrawn,
    .u64 r.unlockedAmount]
  take := do
    return {
      claimant := ← Take.pubkey
      lockedAmount := ← Take.u64
      lockedAmountWithdrawn := ← Take.u64
      unlockedAmount := ← Take.u64 }

namespace ClaimStatus

/-- What is locked and not yet withdrawn; nothing if more has been withdrawn
than was locked. -/
def lockedAmountRemaining (status : ClaimStatus) : UInt64 :=
  if status.lockedAmountWithdrawn ≤ status.lockedAmount then
    status.lockedAmount - status.lockedAmountWithdrawn
  else
    0

/-- The address of a claimant's account. -/
def address (program claimant distributor : Address) : Except Error Address :=
  (Derivation.claimStatus program claimant distributor).address

end ClaimStatus

end MerkleAirdrop
