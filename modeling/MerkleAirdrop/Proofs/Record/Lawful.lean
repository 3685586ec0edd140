/-
  MerkleAirdrop.Proofs.Record.Lawful
  ──────────────────────────────────
  **THE EIGHT RECORDS, AND THAT THEIR THREE LISTS AGREE.**

  A record names its fields three times: in its layout, in the values it is
  taken apart into, and in the takes that put it together.  `LawfulRecord`
  says that the lists agree position by position.  It is proved for each of
  the eight records, which `RecordType` enumerates, so that a statement about
  all of them is a statement for every `t : RecordType`.
-/
import MerkleAirdrop.Account.ClaimStatus
import MerkleAirdrop.Account.Distributor
import MerkleAirdrop.Instruction.Arguments
import MerkleAirdrop.Proofs.Layout.Take

namespace MerkleAirdrop

open Kind (TakesBytes)

/-! ## §1. Lawful records. -/

/-- The fields, the values and the takes of a record agree. -/
class LawfulRecord (α : Type) [Record α] : Prop where
  /-- There is one value for each field. -/
  length_toValues : ∀ r : α, (Schema.toValues r).length = (Schema.layout α).fields.length
  /-- The takes want the values that a record is taken apart into. -/
  takes : ∀ r : α, Take.Takes Schema.take (Schema.toValues r) r
  /-- Fitting values are those of a record. -/
  exists_of_fits : ∀ {values : List Value}, (Schema.layout α).Fits values →
    ∃ r : α, Schema.toValues r = values
  /-- The elements of vectors take bytes. -/
  vecElements : (Schema.layout α).VecElements TakesBytes

/-! ## §2. The records of accounts. -/

instance : LawfulRecord Distributor where
  length_toValues _ := rfl
  takes r :=
    .next rfl <| .next rfl <| .next (Value.asBlock?_bytes r.root) <| .next rfl <| .next rfl <|
    .next rfl <| .next rfl <| .next rfl <| .next rfl <| .next rfl <| .next rfl <| .next rfl <|
    .next rfl <| .next rfl <| .pure r
  exists_of_fits h := by
    -- One step per field, in the order of the layout.  The record is put
    -- together by position, so a swap of two fields would not close the goal.
    refine h.next Kind.exists_u8 fun bump _ h => ?_
    refine h.next Kind.exists_u64 fun version _ h => ?_
    refine h.next Kind.exists_block fun root _ h => ?_
    refine h.next Kind.exists_pubkey fun mint _ h => ?_
    refine h.next Kind.exists_pubkey fun tokenVault _ h => ?_
    refine h.next Kind.exists_u64 fun maxTotalClaim _ h => ?_
    refine h.next Kind.exists_u64 fun maxNumNodes _ h => ?_
    refine h.next Kind.exists_u64 fun totalAmountClaimed _ h => ?_
    refine h.next Kind.exists_u64 fun numNodesClaimed _ h => ?_
    refine h.next Kind.exists_i64 fun startTs _ h => ?_
    refine h.next Kind.exists_i64 fun endTs _ h => ?_
    refine h.next Kind.exists_pubkey fun creator _ h => ?_
    refine h.next Kind.exists_pubkey fun admin _ h => ?_
    refine h.next Kind.exists_bool fun clawedBack _ h => ?_
    rw [h.eq_nil]
    exact ⟨⟨bump, version, root, mint, tokenVault, maxTotalClaim, maxNumNodes,
      totalAmountClaimed, numNodesClaimed, startTs, endTs, creator, admin, clawedBack⟩, rfl⟩
  vecElements := by
    simp [Layout.VecElements, Schema.layout, Kind.VecElements]

instance : LawfulRecord ClaimStatus where
  length_toValues _ := rfl
  takes r := .next rfl <| .next rfl <| .next rfl <| .next rfl <| .pure r
  exists_of_fits h := by
    refine h.next Kind.exists_pubkey fun claimant _ h => ?_
    refine h.next Kind.exists_u64 fun lockedAmount _ h => ?_
    refine h.next Kind.exists_u64 fun lockedAmountWithdrawn _ h => ?_
    refine h.next Kind.exists_u64 fun unlockedAmount _ h => ?_
    rw [h.eq_nil]
    exact ⟨⟨claimant, lockedAmount, lockedAmountWithdrawn, unlockedAmount⟩, rfl⟩
  vecElements := by
    simp [Layout.VecElements, Schema.layout, Kind.VecElements]

/-! ## §3. The arguments of instructions. -/

instance : LawfulRecord NewDistributor where
  length_toValues _ := rfl
  takes r :=
    .next rfl <| .next (Value.asBlock?_bytes r.root) <| .next rfl <| .next rfl <| .next rfl <|
    .next rfl <| .pure r
  exists_of_fits h := by
    refine h.next Kind.exists_u64 fun version _ h => ?_
    refine h.next Kind.exists_block fun root _ h => ?_
    refine h.next Kind.exists_u64 fun maxTotalClaim _ h => ?_
    refine h.next Kind.exists_u64 fun maxNumNodes _ h => ?_
    refine h.next Kind.exists_i64 fun startVestingTs _ h => ?_
    refine h.next Kind.exists_i64 fun endVestingTs _ h => ?_
    rw [h.eq_nil]
    exact ⟨⟨version, root, maxTotalClaim, maxNumNodes, startVestingTs, endVestingTs⟩, rfl⟩
  vecElements := by
    simp [Layout.VecElements, Schema.layout, Kind.VecElements]

instance : LawfulRecord NewClaim where
  length_toValues _ := rfl
  takes r := .next rfl <| .next rfl <| .next (Value.asHashes?_list r.proof) <| .pure r
  exists_of_fits h := by
    refine h.next Kind.exists_u64 fun amountUnlocked _ h => ?_
    refine h.next Kind.exists_u64 fun amountLocked _ h => ?_
    refine h.next Kind.exists_hashes fun proof _ h => ?_
    rw [h.eq_nil]
    exact ⟨⟨amountUnlocked, amountLocked, proof⟩, rfl⟩
  vecElements := by
    simp [Layout.VecElements, Schema.layout, Kind.VecElements, TakesBytes, Kind.width]

instance : LawfulRecord ClaimLocked where
  length_toValues _ := rfl
  takes r := .pure r
  exists_of_fits h := ⟨⟨⟩, h.eq_nil.symm⟩
  vecElements := by simp [Layout.VecElements, Schema.layout]

instance : LawfulRecord Clawback where
  length_toValues _ := rfl
  takes r := .pure r
  exists_of_fits h := ⟨⟨⟩, h.eq_nil.symm⟩
  vecElements := by simp [Layout.VecElements, Schema.layout]

instance : LawfulRecord SetAdmin where
  length_toValues _ := rfl
  takes r := .pure r
  exists_of_fits h := ⟨⟨⟩, h.eq_nil.symm⟩
  vecElements := by simp [Layout.VecElements, Schema.layout]

instance : LawfulRecord WithdrawCustodySol where
  length_toValues _ := rfl
  takes r := .next rfl <| .pure r
  exists_of_fits h := by
    refine h.next Kind.exists_u64 fun amountLamports _ h => ?_
    rw [h.eq_nil]
    exact ⟨⟨amountLamports⟩, rfl⟩
  vecElements := by
    simp [Layout.VecElements, Schema.layout, Kind.VecElements]

/-! ## §4. One type for all of them. -/

/-- The eight records. -/
inductive RecordType where
  | distributor
  | claimStatus
  | newDistributor
  | newClaim
  | claimLocked
  | clawback
  | setAdmin
  | withdrawCustodySol
  deriving DecidableEq, Repr

namespace RecordType

/-- The values of a record. -/
def Carrier : RecordType → Type
  | distributor => Distributor
  | claimStatus => ClaimStatus
  | newDistributor => NewDistributor
  | newClaim => NewClaim
  | claimLocked => ClaimLocked
  | clawback => Clawback
  | setAdmin => SetAdmin
  | withdrawCustodySol => WithdrawCustodySol

instance : (t : RecordType) → Record t.Carrier
  | distributor => inferInstanceAs (Record Distributor)
  | claimStatus => inferInstanceAs (Record ClaimStatus)
  | newDistributor => inferInstanceAs (Record NewDistributor)
  | newClaim => inferInstanceAs (Record NewClaim)
  | claimLocked => inferInstanceAs (Record ClaimLocked)
  | clawback => inferInstanceAs (Record Clawback)
  | setAdmin => inferInstanceAs (Record SetAdmin)
  | withdrawCustodySol => inferInstanceAs (Record WithdrawCustodySol)

instance : (t : RecordType) → LawfulRecord t.Carrier
  | distributor => inferInstanceAs (LawfulRecord Distributor)
  | claimStatus => inferInstanceAs (LawfulRecord ClaimStatus)
  | newDistributor => inferInstanceAs (LawfulRecord NewDistributor)
  | newClaim => inferInstanceAs (LawfulRecord NewClaim)
  | claimLocked => inferInstanceAs (LawfulRecord ClaimLocked)
  | clawback => inferInstanceAs (LawfulRecord Clawback)
  | setAdmin => inferInstanceAs (LawfulRecord SetAdmin)
  | withdrawCustodySol => inferInstanceAs (LawfulRecord WithdrawCustodySol)

/-- The fields of a record. -/
def layout (t : RecordType) : Layout := Schema.layout t.Carrier

/-- The tag of a record. -/
def tag (t : RecordType) : Discriminator := Record.discriminator t.Carrier

end RecordType

end MerkleAirdrop
