/-
  MerkleAirdrop.Instruction.Call
  ──────────────────────────────
  **ONE OF THE SIX INSTRUCTIONS, WITH ITS ARGUMENTS.**

  The tag in front of instruction data says which instruction it is; what
  follows is read as the arguments of that instruction.
-/
import MerkleAirdrop.Instruction.Arguments
import MerkleAirdrop.Schema.Json

namespace MerkleAirdrop

/-- An instruction of the program. -/
inductive Call where
  | newDistributor (args : NewDistributor)
  | newClaim (args : NewClaim)
  | claimLocked (args : ClaimLocked)
  | clawback (args : Clawback)
  | setAdmin (args : SetAdmin)
  | withdrawCustodySol (args : WithdrawCustodySol)
  deriving DecidableEq

namespace Call

/-- The instruction that data asks for. -/
def decode (data : List UInt8) : Except Error Call := do
  let (found, c) ← splitTag data
  if found = Record.discriminator NewDistributor then
    newDistributor <$> Record.decodeFields c
  else if found = Record.discriminator NewClaim then
    newClaim <$> Record.decodeFields c
  else if found = Record.discriminator ClaimLocked then
    claimLocked <$> Record.decodeFields c
  else if found = Record.discriminator Clawback then
    clawback <$> Record.decodeFields c
  else if found = Record.discriminator SetAdmin then
    setAdmin <$> Record.decodeFields c
  else if found = Record.discriminator WithdrawCustodySol then
    withdrawCustodySol <$> Record.decodeFields c
  else
    throw (.unknownInstruction found)

/-- The name of the instruction. -/
def name : Call → String
  | newDistributor _ => Record.name NewDistributor
  | newClaim _ => Record.name NewClaim
  | claimLocked _ => Record.name ClaimLocked
  | clawback _ => Record.name Clawback
  | setAdmin _ => Record.name SetAdmin
  | withdrawCustodySol _ => Record.name WithdrawCustodySol

/-- The label of the instruction, its words joined by capitals. -/
def label : Call → String
  | newDistributor _ => "NewDistributor"
  | newClaim _ => "NewClaim"
  | claimLocked _ => "ClaimLocked"
  | clawback _ => "Clawback"
  | setAdmin _ => "SetAdmin"
  | withdrawCustodySol _ => "WithdrawCustodySol"

/-- The arguments of the instruction as JSON. -/
def argsJson : Call → Json
  | newDistributor args => Schema.toJson args
  | newClaim args => Schema.toJson args
  | claimLocked args => Schema.toJson args
  | clawback args => Schema.toJson args
  | setAdmin args => Schema.toJson args
  | withdrawCustodySol args => Schema.toJson args

/-- The instruction as JSON: its label in snake case and its arguments. -/
def toJson (call : Call) : Json :=
  .object [("instruction", .text (snakeCase call.label)), ("args", call.argsJson)]

end Call

end MerkleAirdrop
