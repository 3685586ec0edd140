/-
  MerkleAirdrop.Instruction.Arguments
  ───────────────────────────────────
  **WHAT THE SIX INSTRUCTIONS OF THE PROGRAM ARE TOLD.**

  Each instruction has an argument record; three of them have no fields and
  say everything by their tag.
-/
import MerkleAirdrop.Schema.Basic

namespace MerkleAirdrop

/-! ## §1. Making a distributor. -/

/-- The arguments of the instruction that makes a distributor. -/
structure NewDistributor where
  version : UInt64
  root : Hash
  maxTotalClaim : UInt64
  maxNumNodes : UInt64
  /-- Vesting starts here, in seconds of the epoch. -/
  startVestingTs : Int64
  /-- Vesting ends here. -/
  endVestingTs : Int64
  deriving DecidableEq, Inhabited

instance : Record NewDistributor where
  name := "new_distributor"
  discriminator := ⟨[32, 139, 112, 171, 0, 2, 225, 155], rfl⟩
  layout := ⟨[
    ⟨"version", .u64⟩,
    ⟨"root", .bytes 32⟩,
    ⟨"max_total_claim", .u64⟩,
    ⟨"max_num_nodes", .u64⟩,
    ⟨"start_vesting_ts", .i64⟩,
    ⟨"end_vesting_ts", .i64⟩]⟩
  toValues r := [
    .u64 r.version,
    .bytes r.root.toList,
    .u64 r.maxTotalClaim,
    .u64 r.maxNumNodes,
    .i64 r.startVestingTs,
    .i64 r.endVestingTs]
  take := do
    return {
      version := ← Take.u64
      root := ← Take.block 32
      maxTotalClaim := ← Take.u64
      maxNumNodes := ← Take.u64
      startVestingTs := ← Take.i64
      endVestingTs := ← Take.i64 }

/-! ## §2. Claiming. -/

/-- The arguments of the first claim, which pays the unlocked part and opens
the claimant's account. -/
structure NewClaim where
  amountUnlocked : UInt64
  amountLocked : UInt64
  /-- The nodes from the leaf's neighbour up to the root's child. -/
  proof : List Hash
  deriving DecidableEq, Inhabited

instance : Record NewClaim where
  name := "new_claim"
  discriminator := ⟨[78, 177, 98, 123, 210, 21, 187, 83], rfl⟩
  layout := ⟨[
    ⟨"amount_unlocked", .u64⟩,
    ⟨"amount_locked", .u64⟩,
    ⟨"proof", .vec (.bytes 32)⟩]⟩
  toValues r := [
    .u64 r.amountUnlocked,
    .u64 r.amountLocked,
    .list (r.proof.map fun node => .bytes node.toList)]
  take := do
    return {
      amountUnlocked := ← Take.u64
      amountLocked := ← Take.u64
      proof := ← Take.hashes }

/-- The instruction that pays what has vested has no arguments. -/
structure ClaimLocked where
  deriving DecidableEq, Inhabited

instance : Record ClaimLocked where
  name := "claim_locked"
  discriminator := ⟨[34, 206, 181, 23, 11, 207, 147, 90], rfl⟩
  layout := ⟨[]⟩
  toValues _ := []
  take := return ⟨⟩

/-! ## §3. Administration. -/

/-- The instruction that takes back what is left has no arguments. -/
structure Clawback where
  deriving DecidableEq, Inhabited

instance : Record Clawback where
  name := "clawback"
  discriminator := ⟨[111, 92, 142, 79, 33, 234, 82, 27], rfl⟩
  layout := ⟨[]⟩
  toValues _ := []
  take := return ⟨⟩

/-- The instruction that hands a distributor to another admin has no
arguments. -/
structure SetAdmin where
  deriving DecidableEq, Inhabited

instance : Record SetAdmin where
  name := "set_admin"
  discriminator := ⟨[251, 163, 0, 52, 91, 194, 187, 92], rfl⟩
  layout := ⟨[]⟩
  toValues _ := []
  take := return ⟨⟩

/-! ## §4. Custody. -/

/-- The arguments of the instruction that pays out lamports held in
custody. -/
structure WithdrawCustodySol where
  amountLamports : UInt64
  deriving DecidableEq, Inhabited

instance : Record WithdrawCustodySol where
  name := "withdraw_custody_sol"
  discriminator := ⟨[118, 134, 84, 39, 59, 124, 217, 154], rfl⟩
  layout := ⟨[⟨"amount_lamports", .u64⟩]⟩
  toValues r := [.u64 r.amountLamports]
  take := do return { amountLamports := ← Take.u64 }

end MerkleAirdrop
