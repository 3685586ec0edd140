/-
  MerkleAirdrop.Proofs.Derivation
  ───────────────────────────────
  **ADDRESSES OF DIFFERENT SEEDS ARE DIFFERENT, UP TO COLLISIONS OF THE HASH.**

      Derivation.preimage_injective   what is hashed tells the kind, all
                                      inputs and the bump
      Derivation.eq_or_collision      one address comes from one derivation,
                                      or two messages have the same digest

  The parts of what is hashed are joined without separators.  Within a kind
  each part has a fixed length, so the parts can be told apart
  (`Derivation.length_parts`); the kinds differ in the length of the whole
  (`Derivation.kind_injective`).
-/
import MerkleAirdrop.Claim
import MerkleAirdrop.Proofs.Bytes
import MerkleAirdrop.Proofs.Except
import Mathlib.Algebra.GroupWithZero.Nat

namespace MerkleAirdrop

/-- Two messages of one digest. -/
def Sha256.Collision (message message' : List UInt8) : Prop :=
  message ≠ message' ∧ hash message = hash message'

namespace Derivation

/-! ## §1. The parts of what is hashed. -/

/-- The parts of what is hashed for a bump, in order. -/
def parts (d : Derivation) (bump : UInt8) : List (List UInt8) :=
  d.seeds ++ [[bump], d.program.toList, tag "ProgramDerivedAddress"]

theorem preimage_eq_flatten (d : Derivation) (bump : UInt8) :
    d.preimage bump = (d.parts bump).flatten := by
  simp [preimage, parts]

/-- The lengths of the parts, which the kind of a derivation decides. -/
def partLengths : Derivation → List Nat
  | .distributor .. => [17, 32, 32, 8, 1, 32, 21]
  | .claimStatus .. => [11, 32, 32, 1, 32, 21]
  | .solCustody .. => [10, 32, 1, 32, 21]
  | .associatedToken .. => [32, 32, 32, 1, 32, 21]

theorem length_parts (d : Derivation) (bump : UInt8) :
    (d.parts bump).map List.length = d.partLengths := by
  cases d <;> simp [parts, seeds, partLengths, tag]

theorem length_preimage (d : Derivation) (bump : UInt8) :
    (d.preimage bump).length = d.partLengths.sum := by
  rw [preimage_eq_flatten, List.length_flatten, length_parts]

/-- Preimages of one length are of one kind: 143, 129, 96 and 150 bytes are
four different lengths. -/
theorem partLengths_eq_of_sum_eq {d d' : Derivation}
    (h : d.partLengths.sum = d'.partLengths.sum) : d.partLengths = d'.partLengths := by
  cases d <;> cases d' <;> first | rfl | simp [partLengths] at h

/-! ## §2. What is hashed tells what it was made from. -/

/-- The parts hold every input and the bump. -/
theorem parts_injective {d d' : Derivation} {bump bump' : UInt8}
    (hkind : d.partLengths = d'.partLengths) (h : d.parts bump = d'.parts bump') :
    d = d' ∧ bump = bump' := by
  cases d with
  | distributor program mint creator version =>
    cases d' with
    | distributor program' mint' creator' version' =>
      simp only [parts, seeds, Derivation.program, List.cons_append, List.nil_append,
        List.cons.injEq, and_true, true_and] at h
      obtain ⟨hmint, hcreator, hversion, hbump, hprogram⟩ := h
      rw [Block.ext hmint, Block.ext hcreator, Block.ext hprogram, bytesOfU64_injective hversion]
      exact ⟨rfl, hbump⟩
    | _ => simp [partLengths] at hkind
  | claimStatus program claimant source =>
    cases d' with
    | claimStatus program' claimant' source' =>
      simp only [parts, seeds, Derivation.program, List.cons_append, List.nil_append,
        List.cons.injEq, and_true, true_and] at h
      obtain ⟨hclaimant, hsource, hbump, hprogram⟩ := h
      rw [Block.ext hclaimant, Block.ext hsource, Block.ext hprogram]
      exact ⟨rfl, hbump⟩
    | _ => simp [partLengths] at hkind
  | solCustody program owner =>
    cases d' with
    | solCustody program' owner' =>
      simp only [parts, seeds, Derivation.program, List.cons_append, List.nil_append,
        List.cons.injEq, and_true, true_and] at h
      obtain ⟨howner, hbump, hprogram⟩ := h
      rw [Block.ext howner, Block.ext hprogram]
      exact ⟨rfl, hbump⟩
    | _ => simp [partLengths] at hkind
  | associatedToken wallet tokenProgram mint =>
    cases d' with
    | associatedToken wallet' tokenProgram' mint' =>
      -- the program is the same for all token accounts and is no input
      simp only [parts, seeds, Derivation.program, List.cons_append, List.nil_append,
        List.cons.injEq, and_true] at h
      obtain ⟨hwallet, htokenProgram, hmint, hbump⟩ := h
      rw [Block.ext hwallet, Block.ext htokenProgram, Block.ext hmint]
      exact ⟨rfl, hbump⟩
    | _ => simp [partLengths] at hkind

/-- **What is hashed tells the kind of a derivation, its inputs and the
bump.** -/
theorem preimage_injective {d d' : Derivation} {bump bump' : UInt8}
    (h : d.preimage bump = d'.preimage bump') : d = d' ∧ bump = bump' := by
  have hsum : d.partLengths.sum = d'.partLengths.sum := by
    rw [← length_preimage d bump, h, length_preimage]
  have hkind := partLengths_eq_of_sum_eq hsum
  -- parts of the same lengths are told apart in what they are joined to
  refine parts_injective hkind (List.eq_iff_flatten_eq.2 ⟨?_, ?_⟩)
  · rw [← preimage_eq_flatten, h, preimage_eq_flatten]
  · rw [length_parts, hkind, length_parts]

/-! ## §3. Found addresses. -/

/-- What an attempt finds is a digest that is no point of the curve. -/
theorem attempt_eq_some_iff {d : Derivation} {bump : UInt8} {found : DerivedAddress} :
    d.attempt bump = some found ↔
      Ed25519.isPoint (Sha256.hash (d.preimage bump)) = false ∧
        found = ⟨Sha256.hash (d.preimage bump), bump⟩ := by
  unfold attempt
  generalize Sha256.hash (d.preimage bump) = digest
  dsimp only
  cases Ed25519.isPoint digest with
  | true =>
    constructor
    · intro h
      cases h
    · rintro ⟨h, -⟩
      cases h
  | false => exact ⟨fun h => ⟨rfl, (Option.some.inj h).symm⟩, fun h => congrArg some h.2.symm⟩

theorem attempt_of_find {d : Derivation} {found : DerivedAddress} (h : d.find = .ok found) :
    d.attempt found.bump = some found := by
  obtain ⟨bump, _, hattempt⟩ := List.exists_of_findSome?_eq_some (outcome_eq_ok_iff.1 h)
  obtain ⟨-, rfl⟩ := attempt_eq_some_iff.1 hattempt
  exact hattempt

/-- An address that was found is the digest of its preimage. -/
theorem address_of_find {d : Derivation} {found : DerivedAddress} (h : d.find = .ok found) :
    found.address = Sha256.hash (d.preimage found.bump) :=
  congrArg DerivedAddress.address (attempt_eq_some_iff.1 (attempt_of_find h)).2

/-- An address that was found is no point of the curve. -/
theorem isPoint_of_find {d : Derivation} {found : DerivedAddress} (h : d.find = .ok found) :
    Ed25519.isPoint found.address = false := by
  rw [address_of_find h]
  exact (attempt_eq_some_iff.1 (attempt_of_find h)).1

/-- Derivations of one address are the same, or what was hashed for them is a
collision. -/
theorem eq_or_collision_preimage {d d' : Derivation} {found found' : DerivedAddress}
    (h : d.find = .ok found) (h' : d'.find = .ok found')
    (hsame : found.address = found'.address) :
    d = d' ∨ Sha256.Collision (d.preimage found.bump) (d'.preimage found'.bump) := by
  by_cases hpreimage : d.preimage found.bump = d'.preimage found'.bump
  · exact .inl (preimage_injective hpreimage).1
  · exact .inr ⟨hpreimage, by rw [← address_of_find h, hsame, address_of_find h']⟩

/-- **One address comes from one derivation, up to collisions.**  Two
derivations of whatever kinds and under whatever programs that give the same
address are the same in all their inputs, or what was hashed for them is a
collision. -/
theorem eq_or_collision {d d' : Derivation} {found found' : DerivedAddress}
    (h : d.find = .ok found) (h' : d'.find = .ok found')
    (hsame : found.address = found'.address) :
    d = d' ∧ found = found' ∨
      Sha256.Collision (d.preimage found.bump) (d'.preimage found'.bump) := by
  rcases eq_or_collision_preimage h h' hsame with rfl | hcollision
  · rw [h] at h'
    exact .inl ⟨rfl, Except.ok.inj h'⟩
  · exact .inr hcollision

/-- A custody address, found at the first bump, against itself. -/
theorem eq_or_collision_custody :
    (solCustody Program.airdrop Program.system).find = .ok ⟨⟨[150, 176, 50, 108, 15, 143, 155, 118,
      28, 42, 202, 250, 220, 104, 108, 126, 175, 123, 46, 195, 101, 224, 155, 182, 190, 44, 61, 122,
      236, 22, 254, 139], rfl⟩, 255⟩ ∧
    (solCustody Program.airdrop Program.system = solCustody Program.airdrop Program.system ∨
      Sha256.Collision ((solCustody Program.airdrop Program.system).preimage 255)
        ((solCustody Program.airdrop Program.system).preimage 255)) := by
  have hfind : (solCustody Program.airdrop Program.system).find = .ok ⟨⟨[150, 176, 50, 108, 15, 143,
      155, 118, 28, 42, 202, 250, 220, 104, 108, 126, 175, 123, 46, 195, 101, 224, 155, 182, 190,
      44, 61, 122, 236, 22, 254, 139], rfl⟩, 255⟩ :=
    outcome_eq_ok_iff.2 (by decide +kernel)
  exact ⟨hfind, (eq_or_collision hfind hfind rfl).imp And.left id⟩

/-- Two derivations have one address, found from two messages of one digest. -/
def Collide (d d' : Derivation) : Prop :=
  ∃ found found', d.find = .ok found ∧ d'.find = .ok found' ∧ found.address = found'.address ∧
    Sha256.Collision (d.preimage found.bump) (d'.preimage found'.bump)

/-! ## §4. The addresses of a flow. -/

theorem address_eq_ok_iff {d : Derivation} {address : Address} :
    d.address = .ok address ↔ ∃ bump, d.find = .ok ⟨address, bump⟩ := by
  unfold Derivation.address
  rw [Except.map_eq_ok_iff]
  constructor
  · rintro ⟨⟨_, bump⟩, h, rfl⟩
    exact ⟨bump, h⟩
  · rintro ⟨bump, h⟩
    exact ⟨_, h, rfl⟩

end Derivation

/-- The addresses of a distributor are derived, the vault's from the
distributor's. -/
theorem DistributorAddresses.derive_eq_ok_iff {program mint creator tokenProgram : Address}
    {version : UInt64} {addresses : DistributorAddresses} :
    derive program mint creator version tokenProgram = .ok addresses ↔
      (Derivation.distributor program mint creator version).find
        = .ok ⟨addresses.distributor, addresses.bump⟩ ∧
      (Derivation.associatedToken addresses.distributor tokenProgram mint).address
        = .ok addresses.tokenVault := by
  unfold derive tokenAccount
  simp only [Except.bind_eq_ok_iff]
  constructor
  · rintro ⟨found, hfound, vault, hvault, h⟩
    rw [← Except.ok.inj h]
    exact ⟨hfound, hvault⟩
  · rintro ⟨hfound, hvault⟩
    exact ⟨_, hfound, _, hvault, rfl⟩

/-- The addresses that a claimant touches are derived. -/
theorem ClaimAddresses.derive_eq_ok_iff {program distributor claimant mint tokenProgram : Address}
    {addresses : ClaimAddresses} :
    derive program distributor claimant mint tokenProgram = .ok addresses ↔
      (Derivation.claimStatus program claimant distributor).address = .ok addresses.claimStatus ∧
      (Derivation.associatedToken distributor tokenProgram mint).address = .ok addresses.source ∧
      (Derivation.associatedToken claimant tokenProgram mint).address = .ok addresses.target ∧
      addresses.distributor = distributor ∧ addresses.claimant = claimant ∧
      addresses.tokenProgram = tokenProgram := by
  unfold derive tokenAccount
  simp only [Except.bind_eq_ok_iff]
  constructor
  · rintro ⟨status, hstatus, source, hsource, target, htarget, h⟩
    rw [← Except.ok.inj h]
    exact ⟨hstatus, hsource, htarget, rfl, rfl, rfl⟩
  · rintro ⟨hstatus, hsource, htarget, rfl, rfl, rfl⟩
    exact ⟨_, hstatus, _, hsource, _, htarget, rfl⟩

end MerkleAirdrop
