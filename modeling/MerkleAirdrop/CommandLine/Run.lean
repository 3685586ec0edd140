/-
  MerkleAirdrop.CommandLine.Run
  ─────────────────────────────
  **WHAT A COMMAND PRINTS.**

  A command that succeeds prints one JSON value, spread over lines, or one
  line of text.  A command that fails tells a chain of causes, the outermost
  first.  The commands that show something ask the node at the url that the
  command line names.
-/
import MerkleAirdrop.Account.ClaimStatus
import MerkleAirdrop.Account.Distributor
import MerkleAirdrop.Claim
import MerkleAirdrop.CommandLine.Command
import MerkleAirdrop.Fetch
import MerkleAirdrop.Instruction.Call
import MerkleAirdrop.ProgramError

namespace MerkleAirdrop.CommandLine

/-! ## §1. Failures. -/

/-- Why a command failed: a chain of causes, the outermost first.  A request
that failed without a cause has no words. -/
structure Failure where
  chain : List (Option String)
  deriving DecidableEq, Repr

namespace Failure

/-- A cause of its own. -/
def text (message : String) : Failure := ⟨[some message]⟩

/-- The cause of an error. -/
def ofError (e : Error) : Failure := ⟨[e.message?]⟩

/-- The cause of a failure to do what the words say. -/
def within (context : String) (failure : Failure) : Failure := ⟨some context :: failure.chain⟩

end Failure

/-- A computation whose errors are the whole chain. -/
def plainly {α : Type} (x : Except Error α) : Except Failure α := x.mapError Failure.ofError

/-! ## §2. Output. -/

/-- A JSON value spread over lines. -/
def printed (j : Json) : String := j.pretty ++ "\n"

/-- A derived address. -/
def derivedJson (d : DerivedAddress) : Json :=
  .object [("address", .text (Address.text d.address)), ("bump", .ofNat d.bump.toNat)]

/-- An account that an instruction works on. -/
def metaJson (m : AccountMeta) : Json :=
  .object [
    ("pubkey", .text (Address.text m.address)),
    ("isSigner", .bool m.isSigner),
    ("isWritable", .bool m.isWritable)]

/-- An instruction, its data in base 58. -/
def instructionJson (i : Instruction) : Json :=
  .object [
    ("programId", .text (Address.text i.program)),
    ("accounts", .arr (i.accounts.map metaJson)),
    ("data", .text (Base58.encode i.data))]

/-- A claimant's account, with what is still locked. -/
def claimStatusJson (status : ClaimStatus) : Json :=
  .object [
    ("claimStatus", Schema.toJson status),
    ("lockedAmountRemaining", .text (Numeral.writeU64 status.lockedAmountRemaining))]

/-! ## §3. Commands. -/

/-- The derivation of a distributor with these seeds. -/
def DistributorSeeds.derivation (seeds : DistributorSeeds) (program : Address) : Derivation :=
  .distributor program seeds.mint seeds.creator seeds.version

/-- Prints a derived address. -/
def printDerived (d : Derivation) : Except Failure String := do
  return printed (derivedJson (← plainly d.find))

/-- What was fetched, with words for a failure and for nothing there. -/
def expect {α : Type} (fetched : Except Error (Option α)) (failed missing : String) :
    Except Failure α :=
  match fetched with
  | .error e => .error ((Failure.ofError e).within failed)
  | .ok none => .error (.text missing)
  | .ok (some a) => .ok a

/-- Prints a distributor. -/
def showDistributor (transport : Transport) (program : Address) (seeds : DistributorSeeds) :
    Except Failure String := do
  let address ← plainly (seeds.derivation program).address
  let text := Address.text address
  let record : Distributor ← expect (fetch transport address program)
    s!"failed to read merkle distributor {text}" s!"merkle distributor {text} not found"
  return printed (Schema.toJson record)

/-- Prints a claimant's account. -/
def showClaimStatus (transport : Transport) (program distributor claimant : Address) :
    Except Failure String := do
  let address ← plainly (ClaimStatus.address program claimant distributor)
  let text := Address.text address
  let record : ClaimStatus ← expect (fetch transport address program)
    s!"failed to read claim status {text}" s!"claim status {text} not found"
  return printed (claimStatusJson record)

/-- Prints the balance held for an owner. -/
def showSolCustody (transport : Transport) (program owner : Address) :
    Except Failure String := do
  let text := Address.text owner
  let custody ← expect (fetchSolCustody transport owner program)
    s!"failed to read sol custody of {text}" s!"no sol custody funded for {text}"
  return printed (Schema.toJson custody)

/-- Prints the instructions that claim an allotment. -/
def printClaim (program : Address) (seeds : DistributorSeeds) (claimant : Address)
    (amountUnlocked amountLocked : UInt64) (proof : List Hash) : Except Failure String :=
  plainly do
    let distributor ← (seeds.derivation program).address
    let addresses ← ClaimAddresses.derive program distributor claimant seeds.mint Program.token
    let instructions ← claim amountUnlocked amountLocked proof addresses program
    return printed (.arr (instructions.map instructionJson))

/-- Prints the instruction that makes a distributor. -/
def printNewDistributor (program : Address) (seeds : DistributorSeeds) (args : NewDistributor) :
    Except Failure String :=
  plainly do
    let addresses ← DistributorAddresses.derive program seeds.mint seeds.creator seeds.version
      Program.token
    let instruction ← createDistributor args seeds.mint seeds.creator addresses program
    return printed (instructionJson instruction)

/-- Prints what instruction data in base 58 asks for. -/
def printDecoded (data : String) : Except Failure String := do
  let bytes ← (Base58.decode data).mapError fun e =>
    (Failure.text e.message).within "instruction data is not valid base58"
  return printed (← plainly (Call.decode bytes)).toJson

/-- Prints what an error code means. -/
def printExplained (code : UInt32) : Except Failure String :=
  match ProgramError.lookup? code.toNat with
  | some d => .ok (d.text ++ "\n")
  | none => .error (.text s!"{code.toNat} is not a merkle distributor error code")

/-- What a command prints. -/
def Invocation.run (i : Invocation) (network : Network) : Except Failure String :=
  match i.command with
  | .distributorPda seeds => printDerived (seeds.derivation i.program)
  | .claimStatusPda distributor claimant =>
    printDerived (.claimStatus i.program claimant distributor)
  | .solCustodyPda owner => printDerived (.solCustody i.program owner)
  | .showDistributor seeds => showDistributor (network i.rpcUrl) i.program seeds
  | .showClaimStatus distributor claimant =>
    showClaimStatus (network i.rpcUrl) i.program distributor claimant
  | .showSolCustody owner => showSolCustody (network i.rpcUrl) i.program owner
  | .claimIx seeds claimant unlocked locked proof =>
    printClaim i.program seeds claimant unlocked locked proof
  | .newDistributorIx seeds root maxTotalClaim maxNumNodes startTs endTs =>
    printNewDistributor i.program seeds
      ⟨seeds.version, root, maxTotalClaim, maxNumNodes, startTs, endTs⟩
  | .decodeIx data => printDecoded data
  | .explainError code => printExplained code

/-! ## §4. Whole runs. -/

/-- How a run ends. -/
inductive Outcome where
  /-- It prints this. -/
  | printed (text : String)
  /-- The command fails. -/
  | failed (failure : Failure)
  /-- The command line is refused. -/
  | refused (error : UsageError)

/-- Reads a command line and runs its command. -/
def run (network : Network) (environment : List (String × String))
    (arguments : List String) : Outcome :=
  match Invocation.parse environment arguments with
  | .error e => .refused e
  | .ok invocation =>
    match invocation.run network with
    | .ok text => .printed text
    | .error failure => .failed failure

end MerkleAirdrop.CommandLine
