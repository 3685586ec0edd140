/-
  MerkleAirdrop.CommandLine.Command
  ─────────────────────────────────
  **THE COMMANDS AND THEIR FLAGS.**

  Each command has a name, its flags and the way it is made from the values
  given for them.  `Invocation.parse` reads a whole command line.  What stands
  behind the command is read to its end, environment and missing flags
  included, before a value that is still unread in front of the command.
-/
import MerkleAirdrop.CommandLine.Level
import MerkleAirdrop.Program

namespace MerkleAirdrop.CommandLine

/-! ## §1. Commands. -/

/-- What a distributor's address is derived from. -/
structure DistributorSeeds where
  mint : Address
  creator : Address
  version : UInt64
  deriving DecidableEq

/-- What the program is asked to do. -/
inductive Command where
  /-- Derive the address of a distributor. -/
  | distributorPda (seeds : DistributorSeeds)
  /-- Derive the address of a claimant's account. -/
  | claimStatusPda (distributor claimant : Address)
  /-- Derive the address of an owner's custody. -/
  | solCustodyPda (owner : Address)
  /-- Print a distributor. -/
  | showDistributor (seeds : DistributorSeeds)
  /-- Print a claimant's account. -/
  | showClaimStatus (distributor claimant : Address)
  /-- Print the balance held for an owner. -/
  | showSolCustody (owner : Address)
  /-- Print the instructions that claim an allotment. -/
  | claimIx (seeds : DistributorSeeds) (claimant : Address)
      (amountUnlocked amountLocked : UInt64) (proof : List Hash)
  /-- Print the instruction that makes a distributor. -/
  | newDistributorIx (seeds : DistributorSeeds) (root : Hash)
      (maxTotalClaim maxNumNodes : UInt64) (startVestingTs endVestingTs : Int64)
  /-- Print what instruction data asks for. -/
  | decodeIx (data : String)
  /-- Print what an error code means. -/
  | explainError (code : UInt32)
  deriving DecidableEq

/-- A command as it is asked for. -/
structure Subcommand where
  name : String
  flags : List Flag
  /-- The command with these values, if no required one is missing. -/
  build : Assignment → Option Command

/-! ## §2. Flags that commands share. -/

/-- The flags for a distributor's seeds. -/
def seedFlags : List Flag :=
  [.single "mint" .address, .single "creator" .address, .single "airdrop-version" .u64]

/-- A distributor's seeds. -/
def seeds? (a : Assignment) : Option DistributorSeeds := do
  return ⟨← a.address? "mint", ← a.address? "creator", ← a.u64? "airdrop-version"⟩

/-- The flags for a claimant at a distributor. -/
def claimantFlags : List Flag :=
  [.single "distributor" .address, .single "claimant" .address]

/-- The flags for an owner. -/
def ownerFlags : List Flag := [.single "owner" .address]

/-! ## §3. The table. -/

/-- All commands. -/
def subcommands : List Subcommand := [
  { name := "distributor-pda"
    flags := seedFlags
    build := fun a => .distributorPda <$> seeds? a },
  { name := "claim-status-pda"
    flags := claimantFlags
    build := fun a => do
      return .claimStatusPda (← a.address? "distributor") (← a.address? "claimant") },
  { name := "sol-custody-pda"
    flags := ownerFlags
    build := fun a => .solCustodyPda <$> a.address? "owner" },
  { name := "show-distributor"
    flags := seedFlags
    build := fun a => .showDistributor <$> seeds? a },
  { name := "show-claim-status"
    flags := claimantFlags
    build := fun a => do
      return .showClaimStatus (← a.address? "distributor") (← a.address? "claimant") },
  { name := "show-sol-custody"
    flags := ownerFlags
    build := fun a => .showSolCustody <$> a.address? "owner" },
  { name := "claim-ix"
    flags := seedFlags ++ [
      .single "claimant" .address,
      .single "amount-unlocked" .u64,
      .single "amount-locked" .u64,
      ⟨"proof", .hash, true⟩]
    build := fun a => do
      return .claimIx (← seeds? a) (← a.address? "claimant")
        ((a.u64? "amount-unlocked").getD 0) ((a.u64? "amount-locked").getD 0)
        (a.hashes "proof") },
  { name := "new-distributor-ix"
    flags := seedFlags ++ [
      .single "root" .hash,
      .single "max-total-claim" .u64,
      .single "max-num-nodes" .u64,
      .single "start-vesting-ts" .i64,
      .single "end-vesting-ts" .i64]
    build := fun a => do
      return .newDistributorIx (← seeds? a) (← a.hash? "root") (← a.u64? "max-total-claim")
        (← a.u64? "max-num-nodes") (← a.i64? "start-vesting-ts") (← a.i64? "end-vesting-ts") },
  { name := "decode-ix"
    flags := [.single "data" .text]
    build := fun a => .decodeIx <$> a.text? "data" },
  { name := "explain-error"
    flags := [.single "code" .errorCode]
    build := fun a => .explainError <$> a.errorCode? "code" }]

/-! ## §4. Whole command lines. -/

/-- A command and what holds for all commands. -/
structure Invocation where
  /-- The node to ask. -/
  rpcUrl : String
  /-- The airdrop program. -/
  program : Address
  command : Command
  deriving DecidableEq

namespace Invocation

/-- The node that is asked where no other is named. -/
def defaultRpcUrl : String := "http://localhost:8899"

/-- What may stand before the command. -/
def topLevel : Level where
  flags := [.single "rpc-url" .text, .single "program-id" .address]
  commands := subcommands.map (·.name)
  tellsVersion := true

end Invocation

namespace Subcommand

/-- What may stand behind a command. -/
def level (s : Subcommand) : Level := ⟨s.flags, [], false⟩

/-- The command with these words behind its name. -/
def parse (s : Subcommand) (environment : List (String × String)) (words : List String) :
    Except UsageError Command := do
  let (progress, _) ← s.level.scan .initial words
  let given ← s.level.finish environment progress
  match s.build given with
  | some command => return command
  | none => throw .missingFlag

/-- The command that a run through the top level stopped at, if it did. -/
def parseStop (environment : List (String × String)) : Stop → Except UsageError (Option Command)
  | none => .ok none
  | some (name, words) =>
    match subcommands.find? (·.name == name) with
    | some s => some <$> s.parse environment words
    | none => .error .invalidSubcommand

end Subcommand

namespace Invocation

/-- Reads a command line, the name of the program left out. -/
def parse (environment : List (String × String)) (arguments : List String) :
    Except UsageError Invocation := do
  let (progress, stop) ← topLevel.scan .initial arguments
  -- what stands behind the command is refused before what stands in front
  let command? ← Subcommand.parseStop environment stop
  let given ← topLevel.finish environment progress
  match command? with
  | some command =>
    return {
      rpcUrl := (given.text? "rpc-url").getD defaultRpcUrl
      program := (given.address? "program-id").getD Program.airdrop
      command := command }
  | none => throw (if given.isEmpty then .noArguments else .missingSubcommand)

end Invocation

end MerkleAirdrop.CommandLine
