/-
  MerkleAirdrop.Account.Basic
  ───────────────────────────
  **ACCOUNTS AS THE CHAIN KEEPS THEM.**

  An account belongs to a program, holds lamports and carries data.  A ledger
  is a finite map from addresses to accounts:

      Ledger.find?_put     what was put is found, and nothing else changes
      Ledger.find?_erase   what was erased is gone, and nothing else changes
-/
import MerkleAirdrop.Error

namespace MerkleAirdrop

/-! ## §1. Accounts. -/

/-- An account. -/
structure Account where
  /-- The program that it belongs to. -/
  owner : Address
  /-- Its balance. -/
  lamports : UInt64
  data : List UInt8
  deriving DecidableEq, Inhabited

/-- Fails unless an account belongs to a program. -/
def Account.checkOwner (account : Account) (address program : Address) : Except Error Unit :=
  if account.owner = program then .ok () else .error (.wrongOwner address program account.owner)

/-! ## §2. Ledgers. -/

/-- A finite map from addresses to accounts; each address stands at most
once. -/
structure Ledger where
  entries : List (Address × Account)

namespace Ledger

/-- No accounts. -/
def empty : Ledger := ⟨[]⟩

/-- The account at an address. -/
def find? (ledger : Ledger) (address : Address) : Option Account :=
  (ledger.entries.find? (·.1 == address)).map (·.2)

/-- The ledger without the account at an address. -/
def erase (ledger : Ledger) (address : Address) : Ledger :=
  ⟨ledger.entries.filter (·.1 != address)⟩

/-- The ledger with an account at an address, in place of what was there. -/
def put (ledger : Ledger) (address : Address) (account : Account) : Ledger :=
  ⟨(address, account) :: (ledger.erase address).entries⟩

@[simp] theorem find?_empty (address : Address) : empty.find? address = none := rfl

theorem find?_erase (ledger : Ledger) (address other : Address) :
    (ledger.erase address).find? other
      = if address = other then none else ledger.find? other := by
  simp only [find?, erase, List.find?_filter]
  split
  · next h =>
    -- no entry passes both the filter and the search
    subst h
    rw [List.find?_eq_none.2 (by simp)]
    rfl
  · next h =>
    congr 2
    funext entry
    by_cases he : entry.1 = other
    · subst he
      simp [Ne.symm h]
    · simp [he]

theorem find?_put (ledger : Ledger) (address other : Address) (account : Account) :
    (ledger.put address account).find? other
      = if address = other then some account else ledger.find? other := by
  by_cases h : address = other
  · simp [find?, put, h]
  · have herase := find?_erase ledger address other
    rw [if_neg h] at herase
    rw [if_neg h, ← herase]
    simp [find?, put, h]

end Ledger

end MerkleAirdrop
