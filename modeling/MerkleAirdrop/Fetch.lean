/-
  MerkleAirdrop.Fetch
  ───────────────────
  **READING RECORDS THROUGH A TRANSPORT.**

  A transport hands back raw accounts, and a network has one at each url.  An
  account is trusted only after its owner has been checked, and only then is
  its data read; an account that is missing is no error.  A batch is answered
  as a whole: the accounts have to be as many as the addresses, and the first
  of them that fails, in order, fails the batch.
-/
import MerkleAirdrop.Account.SolCustody

namespace MerkleAirdrop

/-! ## §1. Transports. -/

/-- A source of raw accounts. -/
structure Transport where
  /-- The account at an address, if there is one. -/
  account : Address → Except Error (Option Account)
  /-- The answer to a batch of addresses. -/
  accounts : List Address → Except Error (List (Option Account))

/-- The transport that each url leads to. -/
abbrev Network := String → Transport

/-- Every url leads to this transport. -/
instance : Coe Transport Network := ⟨fun transport _ => transport⟩

/-- A node that answers from a ledger. -/
structure Node where
  ledger : Ledger
  /-- While set, every request fails, for a cause that may be told. -/
  outage : Option (Option String)
  /-- While set, the answer to a batch has this many accounts. -/
  batchSize : Option Nat

namespace Node

/-- A node that knows the accounts of a ledger. -/
def ofLedger (ledger : Ledger) : Node := ⟨ledger, none, none⟩

/-- A node that answers no request and does not say why. -/
def unreachable : Node := ⟨.empty, some none, none⟩

/-- An answer, unless there is an outage. -/
def reply {α : Type} (node : Node) (answer : α) : Except Error α :=
  match node.outage with
  | none => .ok answer
  | some cause => .error (.requestFailed cause)

/-- Cuts a batch to `size`, or fills it up with missing accounts. -/
def resize (batch : List (Option Account)) (size : Nat) : List (Option Account) :=
  batch.take size ++ List.replicate (size - batch.length) none

/-- The node as a transport. -/
def transport (node : Node) : Transport where
  account address := node.reply (node.ledger.find? address)
  accounts addresses :=
    let batch := addresses.map node.ledger.find?
    node.reply (match node.batchSize with
      | none => batch
      | some size => resize batch size)

end Node

/-! ## §2. Records. -/

variable {α : Type} [Record α]

/-- The record in an account, which has to be the program's. -/
def decodeOwned (address program : Address) : Option Account → Except Error (Option α)
  | none => .ok none
  | some account => do
    account.checkOwner address program
    some <$> Record.decode account.data

/-- The record at an address. -/
def fetch (transport : Transport) (address program : Address) : Except Error (Option α) := do
  decodeOwned address program (← transport.account address)

/-- The records at several addresses, read in one request. -/
def fetchMultiple (transport : Transport) (addresses : List Address) (program : Address) :
    Except Error (List (Option α)) := do
  let accounts ← transport.accounts addresses
  -- pairing the two lists up is sound only when they are equally long
  if accounts.length = addresses.length then
    (addresses.zip accounts).mapM fun (address, account) => decodeOwned address program account
  else
    throw (.accountCount addresses.length accounts.length)

/-! ## §3. Custody. -/

/-- The balance held for an owner. -/
def fetchSolCustody (transport : Transport) (owner program : Address) :
    Except Error (Option SolCustody) := do
  let address ← SolCustody.address program owner
  match ← transport.account address with
  | none => return none
  | some account => some <$> SolCustody.ofAccount owner address account

end MerkleAirdrop
