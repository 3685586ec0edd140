/-
  MerkleAirdrop.Account.SolCustody
  ────────────────────────────────
  **LAMPORTS HELD FOR AN OWNER.**

  The lamports lie at an address derived from the owner.  The account holds
  no data and stays with the system program; its balance is all there is.
-/
import MerkleAirdrop.Account.Basic
import MerkleAirdrop.Derivation
import MerkleAirdrop.Schema.Basic

namespace MerkleAirdrop

/-- The balance held for an owner. -/
structure SolCustody where
  /-- Who may withdraw it. -/
  owner : Address
  lamports : UInt64
  deriving DecidableEq, Inhabited

instance : Schema SolCustody where
  layout := ⟨[⟨"owner", .pubkey⟩, ⟨"lamports", .u64⟩]⟩
  toValues c := [.pubkey c.owner, .u64 c.lamports]
  take := do return { owner := ← Take.pubkey, lamports := ← Take.u64 }

namespace SolCustody

/-- The address that an owner's lamports lie at. -/
def address (program owner : Address) : Except Error Address :=
  (Derivation.solCustody program owner).address

/-- The balance in an account, which has to be the system program's. -/
def ofAccount (owner address : Address) (account : Account) : Except Error SolCustody := do
  account.checkOwner address Program.system
  return ⟨owner, account.lamports⟩

end SolCustody

end MerkleAirdrop
