/-
  MerkleAirdrop.Account.Distributor
  ─────────────────────────────────
  **THE ACCOUNT OF A DISTRIBUTOR.**

  A distributor holds the tokens of one mint and gives them out to the leaves
  of one Merkle tree.
-/
import MerkleAirdrop.Derivation
import MerkleAirdrop.Schema.Basic

namespace MerkleAirdrop

/-- What the account of a distributor records. -/
structure Distributor where
  /-- The bump its address was found at. -/
  bump : UInt8
  version : UInt64
  /-- The root of the Merkle tree. -/
  root : Hash
  mint : Address
  /-- The token account that it gives out of. -/
  tokenVault : Address
  /-- No more tokens than this are ever given out. -/
  maxTotalClaim : UInt64
  /-- No more leaves than this are ever served. -/
  maxNumNodes : UInt64
  totalAmountClaimed : UInt64
  numNodesClaimed : UInt64
  /-- Vesting starts here, in seconds of the epoch. -/
  startTs : Int64
  /-- Vesting ends here. -/
  endTs : Int64
  creator : Address
  admin : Address
  /-- Whether what was left has been taken back. -/
  clawedBack : Bool
  deriving DecidableEq, Inhabited

instance : Record Distributor where
  name := "MerkleDistributor"
  discriminator := ⟨[77, 119, 139, 70, 84, 247, 12, 26], rfl⟩
  layout := ⟨[
    ⟨"bump", .u8⟩,
    ⟨"version", .u64⟩,
    ⟨"root", .bytes 32⟩,
    ⟨"mint", .pubkey⟩,
    ⟨"token_vault", .pubkey⟩,
    ⟨"max_total_claim", .u64⟩,
    ⟨"max_num_nodes", .u64⟩,
    ⟨"total_amount_claimed", .u64⟩,
    ⟨"num_nodes_claimed", .u64⟩,
    ⟨"start_ts", .i64⟩,
    ⟨"end_ts", .i64⟩,
    ⟨"creator", .pubkey⟩,
    ⟨"admin", .pubkey⟩,
    ⟨"clawed_back", .bool⟩]⟩
  toValues r := [
    .u8 r.bump,
    .u64 r.version,
    .bytes r.root.toList,
    .pubkey r.mint,
    .pubkey r.tokenVault,
    .u64 r.maxTotalClaim,
    .u64 r.maxNumNodes,
    .u64 r.totalAmountClaimed,
    .u64 r.numNodesClaimed,
    .i64 r.startTs,
    .i64 r.endTs,
    .pubkey r.creator,
    .pubkey r.admin,
    .bool r.clawedBack]
  take := do
    return {
      bump := ← Take.u8
      version := ← Take.u64
      root := ← Take.block 32
      mint := ← Take.pubkey
      tokenVault := ← Take.pubkey
      maxTotalClaim := ← Take.u64
      maxNumNodes := ← Take.u64
      totalAmountClaimed := ← Take.u64
      numNodesClaimed := ← Take.u64
      startTs := ← Take.i64
      endTs := ← Take.i64
      creator := ← Take.pubkey
      admin := ← Take.pubkey
      clawedBack := ← Take.bool }

/-- The address of a distributor's account. -/
def Distributor.address (program mint creator : Address) (version : UInt64) :
    Except Error Address :=
  (Derivation.distributor program mint creator version).address

end MerkleAirdrop
