/-
  MerkleAirdrop.Instruction.Build
  ───────────────────────────────
  **INSTRUCTIONS READY TO BE SENT.**

  An instruction names a program, the accounts that it works on, in the order
  that the program declares, and its data: the tag and the arguments.  The
  accounts are passed through as they are given.
-/
import MerkleAirdrop.Derivation
import MerkleAirdrop.Instruction.Arguments

namespace MerkleAirdrop

/-! ## §1. Instructions. -/

/-- An account that an instruction works on. -/
structure AccountMeta where
  address : Address
  /-- Whether its key signs the transaction. -/
  isSigner : Bool
  /-- Whether the program may change it. -/
  isWritable : Bool
  deriving DecidableEq

namespace AccountMeta

/-- An account that the program may change. -/
def writable (address : Address) : AccountMeta := ⟨address, false, true⟩

/-- An account that signs and that the program may change. -/
def signer (address : Address) : AccountMeta := ⟨address, true, true⟩

/-- An account that the program only reads or calls. -/
def readOnly (address : Address) : AccountMeta := ⟨address, false, false⟩

end AccountMeta

/-- An instruction ready to be sent. -/
structure Instruction where
  program : Address
  accounts : List AccountMeta
  data : List UInt8
  deriving DecidableEq

/-- The instruction with these arguments on these accounts. -/
def Instruction.build {α : Type} [Record α] (program : Address) (args : α)
    (accounts : List AccountMeta) : Except Error Instruction := do
  return ⟨program, accounts, ← Record.encode args⟩

/-! ## §2. Making a distributor. -/

/-- The accounts of a new distributor. -/
structure NewDistributor.Accounts where
  distributor : Address
  mint : Address
  tokenVault : Address
  creator : Address
  systemProgram : Address
  associatedTokenProgram : Address
  tokenProgram : Address

namespace NewDistributor

/-- The accounts in the program's order. -/
def Accounts.metas (a : Accounts) : List AccountMeta := [
  .writable a.distributor,
  .readOnly a.mint,
  .readOnly a.tokenVault,
  .signer a.creator,
  .readOnly a.systemProgram,
  .readOnly a.associatedTokenProgram,
  .readOnly a.tokenProgram]

/-- The instruction that makes a distributor. -/
def instruction (args : NewDistributor) (accounts : Accounts) (program : Address) :
    Except Error Instruction :=
  Instruction.build program args accounts.metas

end NewDistributor

/-! ## §3. Claiming. -/

/-- The accounts of a first claim. -/
structure NewClaim.Accounts where
  distributor : Address
  claimStatus : Address
  /-- The distributor's token account. -/
  source : Address
  /-- The claimant's token account. -/
  target : Address
  claimant : Address
  tokenProgram : Address
  systemProgram : Address

namespace NewClaim

/-- The accounts in the program's order. -/
def Accounts.metas (a : Accounts) : List AccountMeta := [
  .writable a.distributor,
  .writable a.claimStatus,
  .writable a.source,
  .writable a.target,
  .signer a.claimant,
  .readOnly a.tokenProgram,
  .readOnly a.systemProgram]

/-- The instruction for a first claim. -/
def instruction (args : NewClaim) (accounts : Accounts) (program : Address) :
    Except Error Instruction :=
  Instruction.build program args accounts.metas

end NewClaim

/-- The accounts of a claim on what has vested. -/
structure ClaimLocked.Accounts where
  distributor : Address
  claimStatus : Address
  /-- The distributor's token account. -/
  source : Address
  /-- The claimant's token account. -/
  target : Address
  claimant : Address
  tokenProgram : Address

namespace ClaimLocked

/-- The accounts in the program's order. -/
def Accounts.metas (a : Accounts) : List AccountMeta := [
  .writable a.distributor,
  .writable a.claimStatus,
  .writable a.source,
  .writable a.target,
  .signer a.claimant,
  .readOnly a.tokenProgram]

/-- The instruction for a claim on what has vested. -/
def instruction (accounts : Accounts) (program : Address) : Except Error Instruction :=
  Instruction.build program ClaimLocked.mk accounts.metas

end ClaimLocked

/-! ## §4. Administration. -/

/-- The accounts for taking back what is left. -/
structure Clawback.Accounts where
  distributor : Address
  /-- The distributor's token account. -/
  source : Address
  /-- Where the tokens go. -/
  target : Address
  admin : Address
  systemProgram : Address
  tokenProgram : Address

namespace Clawback

/-- The accounts in the program's order. -/
def Accounts.metas (a : Accounts) : List AccountMeta := [
  .writable a.distributor,
  .writable a.source,
  .writable a.target,
  .signer a.admin,
  .readOnly a.systemProgram,
  .readOnly a.tokenProgram]

/-- The instruction that takes back what is left. -/
def instruction (accounts : Accounts) (program : Address) : Except Error Instruction :=
  Instruction.build program Clawback.mk accounts.metas

end Clawback

/-- The accounts for handing a distributor over. -/
structure SetAdmin.Accounts where
  distributor : Address
  admin : Address
  newAdmin : Address

namespace SetAdmin

/-- The accounts in the program's order. -/
def Accounts.metas (a : Accounts) : List AccountMeta := [
  .writable a.distributor,
  .signer a.admin,
  .writable a.newAdmin]

/-- The instruction that hands a distributor over. -/
def instruction (accounts : Accounts) (program : Address) : Except Error Instruction :=
  Instruction.build program SetAdmin.mk accounts.metas

end SetAdmin

/-! ## §5. Custody. -/

/-- The accounts for paying out lamports held in custody. -/
structure WithdrawCustodySol.Accounts where
  solCustody : Address
  owner : Address
  systemProgram : Address

namespace WithdrawCustodySol

/-- The accounts in the program's order. -/
def Accounts.metas (a : Accounts) : List AccountMeta := [
  .writable a.solCustody,
  .signer a.owner,
  .readOnly a.systemProgram]

/-- The accounts of an owner's own custody. -/
def Accounts.ofOwner (owner program : Address) : Except Error Accounts := do
  return ⟨← (Derivation.solCustody program owner).address, owner, Program.system⟩

/-- The instruction that pays out lamports held in custody. -/
def instruction (args : WithdrawCustodySol) (accounts : Accounts) (program : Address) :
    Except Error Instruction :=
  Instruction.build program args accounts.metas

end WithdrawCustodySol

/-- The tag of a transfer among the system program's instructions. -/
def transferTag : Nat := 2

/-- The instruction that puts lamports into custody: a plain transfer by the
system program, of which the airdrop program takes no notice. -/
def stakeCustodySol (lamports : UInt64) (owner solCustody : Address) : Instruction where
  program := Program.system
  accounts := [.signer owner, .writable solCustody]
  data := Bytes.ofNat 4 transferTag ++ bytesOfU64 lamports

end MerkleAirdrop
