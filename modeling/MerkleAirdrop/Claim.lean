/-
  MerkleAirdrop.Claim
  ───────────────────
  **WHOLE FLOWS: MAKING A DISTRIBUTOR AND CLAIMING FROM IT.**

  The addresses that a flow touches are derived first and can be looked at
  before anything is built.  A claim pays the unlocked part if there is one,
  then what has vested if there is a locked part.
-/
import MerkleAirdrop.Instruction.Build

namespace MerkleAirdrop

/-- The token account that a wallet has for a mint. -/
def tokenAccount (wallet tokenProgram mint : Address) : Except Error Address :=
  (Derivation.associatedToken wallet tokenProgram mint).address

/-! ## §1. Making a distributor. -/

/-- The addresses that belong to a distributor. -/
structure DistributorAddresses where
  distributor : Address
  bump : UInt8
  /-- The distributor's token account for its mint. -/
  tokenVault : Address
  deriving DecidableEq

/-- The addresses of the distributor with these seeds. -/
def DistributorAddresses.derive (program mint creator : Address) (version : UInt64)
    (tokenProgram : Address) : Except Error DistributorAddresses := do
  let found ← (Derivation.distributor program mint creator version).find
  let tokenVault ← tokenAccount found.address tokenProgram mint
  return ⟨found.address, found.bump, tokenVault⟩

/-- The instruction by which a creator makes a distributor and becomes its
admin. -/
def createDistributor (args : NewDistributor) (mint creator : Address)
    (addresses : DistributorAddresses) (program : Address) : Except Error Instruction :=
  args.instruction {
    distributor := addresses.distributor
    mint := mint
    tokenVault := addresses.tokenVault
    creator := creator
    systemProgram := Program.system
    associatedTokenProgram := Program.associatedToken
    tokenProgram := Program.token } program

/-! ## §2. Claiming. -/

/-- The addresses that a claimant touches. -/
structure ClaimAddresses where
  distributor : Address
  claimant : Address
  claimStatus : Address
  /-- The distributor's token account. -/
  source : Address
  /-- The claimant's token account. -/
  target : Address
  tokenProgram : Address
  deriving DecidableEq

/-- The addresses of a claimant at a distributor. -/
def ClaimAddresses.derive (program distributor claimant mint tokenProgram : Address) :
    Except Error ClaimAddresses := do
  let claimStatus ← (Derivation.claimStatus program claimant distributor).address
  let source ← tokenAccount distributor tokenProgram mint
  let target ← tokenAccount claimant tokenProgram mint
  return ⟨distributor, claimant, claimStatus, source, target, tokenProgram⟩

namespace ClaimAddresses

/-- The accounts of a first claim. -/
def newClaim (a : ClaimAddresses) : NewClaim.Accounts where
  distributor := a.distributor
  claimStatus := a.claimStatus
  source := a.source
  target := a.target
  claimant := a.claimant
  tokenProgram := a.tokenProgram
  systemProgram := Program.system

/-- The accounts of a claim on what has vested. -/
def claimLocked (a : ClaimAddresses) : ClaimLocked.Accounts where
  distributor := a.distributor
  claimStatus := a.claimStatus
  source := a.source
  target := a.target
  claimant := a.claimant
  tokenProgram := a.tokenProgram

end ClaimAddresses

/-- What a computation gives, as a list, or no list entry and no failure if it
is not called for. -/
def whenPositive {α : Type} (amount : UInt64) (x : Except Error α) : Except Error (List α) :=
  if 0 < amount then x.map fun a => [a] else .ok []

/-- The instructions that claim an allotment.  An amount of zero adds no
instruction. -/
def claim (amountUnlocked amountLocked : UInt64) (proof : List Hash)
    (addresses : ClaimAddresses) (program : Address) : Except Error (List Instruction) := do
  let args : NewClaim := ⟨amountUnlocked, amountLocked, proof⟩
  let first ← whenPositive amountUnlocked (args.instruction addresses.newClaim program)
  let second ← whenPositive amountLocked (ClaimLocked.instruction addresses.claimLocked program)
  return first ++ second

end MerkleAirdrop
