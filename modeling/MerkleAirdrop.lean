import MerkleAirdrop.Account.Basic
import MerkleAirdrop.Account.ClaimStatus
import MerkleAirdrop.Account.Distributor
import MerkleAirdrop.Account.SolCustody
import MerkleAirdrop.Address
import MerkleAirdrop.Base58
import MerkleAirdrop.Bytes
import MerkleAirdrop.Claim
import MerkleAirdrop.CommandLine.Command
import MerkleAirdrop.CommandLine.Flag
import MerkleAirdrop.CommandLine.Level
import MerkleAirdrop.CommandLine.Run
import MerkleAirdrop.Derivation
import MerkleAirdrop.Ed25519
import MerkleAirdrop.Error
import MerkleAirdrop.Fetch
import MerkleAirdrop.Instruction.Arguments
import MerkleAirdrop.Instruction.Build
import MerkleAirdrop.Instruction.Call
import MerkleAirdrop.Json.Basic
import MerkleAirdrop.Json.Parse
import MerkleAirdrop.Layout.Decode
import MerkleAirdrop.Layout.Encode
import MerkleAirdrop.Layout.Fields
import MerkleAirdrop.Layout.Kind
import MerkleAirdrop.Layout.Value
import MerkleAirdrop.Main
import MerkleAirdrop.Numeral
import MerkleAirdrop.Program
import MerkleAirdrop.ProgramError
import MerkleAirdrop.Schema.Basic
import MerkleAirdrop.Schema.Json
import MerkleAirdrop.Sha256
import MerkleAirdrop.Proofs.Base58
import MerkleAirdrop.Proofs.Bytes
import MerkleAirdrop.Proofs.Claim
import MerkleAirdrop.Proofs.CommandLine.Answer
import MerkleAirdrop.Proofs.CommandLine.Explain
import MerkleAirdrop.Proofs.CommandLine.Flags
import MerkleAirdrop.Proofs.CommandLine.Line
import MerkleAirdrop.Proofs.CommandLine.RoundTrip
import MerkleAirdrop.Proofs.CommandLine.Scan
import MerkleAirdrop.Proofs.CommandLine.Show
import MerkleAirdrop.Proofs.CommandLine.Written
import MerkleAirdrop.Proofs.Derivation
import MerkleAirdrop.Proofs.Digits
import MerkleAirdrop.Proofs.Ed25519
import MerkleAirdrop.Proofs.Except
import MerkleAirdrop.Proofs.Fetch
import MerkleAirdrop.Proofs.Instruction.Build
import MerkleAirdrop.Proofs.Instruction.Dispatch
import MerkleAirdrop.Proofs.Json.Complete
import MerkleAirdrop.Proofs.Json.Grammar
import MerkleAirdrop.Proofs.Json.Reader
import MerkleAirdrop.Proofs.Json.RoundTrip
import MerkleAirdrop.Proofs.Json.Scalar
import MerkleAirdrop.Proofs.Layout.Accepts
import MerkleAirdrop.Proofs.Layout.Answers
import MerkleAirdrop.Proofs.Layout.Canonical
import MerkleAirdrop.Proofs.Layout.Ends
import MerkleAirdrop.Proofs.Layout.Honest
import MerkleAirdrop.Proofs.Layout.Least
import MerkleAirdrop.Proofs.Layout.Overflow
import MerkleAirdrop.Proofs.Layout.Parts
import MerkleAirdrop.Proofs.Layout.Pieces
import MerkleAirdrop.Proofs.Layout.Reader
import MerkleAirdrop.Proofs.Layout.Reencode
import MerkleAirdrop.Proofs.Layout.RoundTrip
import MerkleAirdrop.Proofs.Layout.Take
import MerkleAirdrop.Proofs.Layout.Weighing
import MerkleAirdrop.Proofs.Layout.Width
import MerkleAirdrop.Proofs.Layout.Wire
import MerkleAirdrop.Proofs.Layout.Words
import MerkleAirdrop.Proofs.Numeral
import MerkleAirdrop.Proofs.Record.Decode
import MerkleAirdrop.Proofs.Record.Json
import MerkleAirdrop.Proofs.Record.Lawful
import MerkleAirdrop.Proofs.Record.Outcome
import MerkleAirdrop.Proofs.Record.Presentation
import MerkleAirdrop.Proofs.Record.RoundTrip
import MerkleAirdrop.Proofs.Schema.Json
