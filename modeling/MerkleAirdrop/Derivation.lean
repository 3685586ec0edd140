/-
  MerkleAirdrop.Derivation
  ────────────────────────
  **ADDRESSES DERIVED FROM SEEDS.**

  A program owns the addresses that no key pair has, and finds them from
  seeds: for the bump 255, 254, … down to 1 it hashes the seeds, the bump
  byte, its own address and a marker, and takes the first digest that is not
  a point of the curve.

  There are four kinds of derived address.  Their seeds carry no separators,
  yet no two preimages coincide: the kinds differ in the length of what is
  hashed, and within a kind every part has a fixed length.
-/
import MerkleAirdrop.Ed25519
import MerkleAirdrop.Error
import MerkleAirdrop.Layout.Value
import MerkleAirdrop.Program
import MerkleAirdrop.Sha256

namespace MerkleAirdrop

/-- What an address is derived from. -/
inductive Derivation where
  /-- The distributor that `creator` made for a mint, under a version. -/
  | distributor (program mint creator : Address) (version : UInt64)
  /-- What one claimant has claimed from a distributor. -/
  | claimStatus (program claimant distributor : Address)
  /-- Where the program keeps an owner's lamports. -/
  | solCustody (program owner : Address)
  /-- The token account of a wallet for a mint. -/
  | associatedToken (wallet tokenProgram mint : Address)
  deriving DecidableEq

/-- An address that was found, and the bump it was found at. -/
structure DerivedAddress where
  address : Address
  bump : UInt8
  deriving DecidableEq

namespace Derivation

/-- A tag as bytes, one for each of its characters, which are all ASCII. -/
def tag (text : String) : List UInt8 := text.toList.map fun c => UInt8.ofNat c.toNat

/-- The program that owns the address. -/
def program : Derivation → Address
  | .distributor owner .. | .claimStatus owner .. | .solCustody owner _ => owner
  | .associatedToken .. => Program.associatedToken

/-- The seeds in order. -/
def seeds : Derivation → List (List UInt8)
  | .distributor _ mint creator version =>
    [tag "MerkleDistributor", mint.toList, creator.toList, bytesOfU64 version]
  | .claimStatus _ claimant source =>
    [tag "ClaimStatus", claimant.toList, source.toList]
  | .solCustody _ owner => [tag "SolCustody", owner.toList]
  | .associatedToken wallet tokenProgram mint =>
    [wallet.toList, tokenProgram.toList, mint.toList]

/-- What is hashed for a bump. -/
def preimage (d : Derivation) (bump : UInt8) : List UInt8 :=
  d.seeds.flatten ++ [bump] ++ d.program.toList ++ tag "ProgramDerivedAddress"

/-- The bumps in the order in which they are tried.  Zero is not tried. -/
def bumps : List UInt8 := (List.range' 1 255).reverse.map UInt8.ofNat

/-- The address at a bump, unless it is a point of the curve. -/
def attempt (d : Derivation) (bump : UInt8) : Option DerivedAddress :=
  let digest := Sha256.hash (d.preimage bump)
  if Ed25519.isPoint digest then none else some ⟨digest, bump⟩

/-- The address at the highest bump that has one. -/
def find? (d : Derivation) : Option DerivedAddress := bumps.findSome? d.attempt

/-- What a search for a bump comes to. -/
def outcome : Option DerivedAddress → Except Error DerivedAddress
  | some derived => .ok derived
  | none => .error .noBump

theorem outcome_eq_ok_iff {found? : Option DerivedAddress} {derived : DerivedAddress} :
    outcome found? = .ok derived ↔ found? = some derived := by
  cases found? <;> simp [outcome]

/-- The derived address; it is an error if no bump has one. -/
def find (d : Derivation) : Except Error DerivedAddress := outcome d.find?

/-- The derived address without its bump. -/
def address (d : Derivation) : Except Error Address := d.find.map (·.address)

end Derivation

end MerkleAirdrop
