/-
  MerkleAirdrop.Proofs.Instruction.Build
  ──────────────────────────────────────
  **AN INSTRUCTION THAT WAS BUILT ASKS FOR THE CALL IT WAS BUILT FROM.**

      Instruction.exists_build          every instruction is built and is
                                        read as the call it was built from
      Instruction.build_of_long_proof   but a claim with a proof too long to
                                        be counted
-/
import MerkleAirdrop.Instruction.Build
import MerkleAirdrop.Proofs.Instruction.Dispatch
import MerkleAirdrop.Proofs.Record.RoundTrip

namespace MerkleAirdrop.Instruction

/-- The instruction goes to `program`, works on these accounts and is read as
this call. -/
structure Asks (i : Instruction) (program : Address) (accounts : List AccountMeta)
    (call : Call) : Prop where
  program_eq : i.program = program
  accounts_eq : i.accounts = accounts
  decode_eq : Call.decode i.data = .ok call

/-- **Where no proof is too long, an instruction is built, and asks for what it
was built from.** -/
theorem exists_build (t : InstructionType) (program : Address) (args : t.Args)
    (accounts : List AccountMeta) (h : (t.record.proofOf args).length < countLimit) :
    ∃ i, build program args accounts = .ok i ∧ i.Asks program accounts (t.call args) := by
  have hencode := t.record.encode_outcome args
  rw [if_pos h] at hencode
  obtain ⟨data, hdata⟩ := hencode
  have hdecode := Record.decode_encode hdata []
  rw [List.append_nil] at hdecode
  unfold build
  rw [hdata]
  exact ⟨_, rfl, rfl, rfl, (Call.decode_eq_ok_iff t args data).2 hdecode⟩

theorem build_of_long_proof (program : Address) (args : NewClaim) (accounts : List AccountMeta)
    (h : countLimit ≤ args.proof.length) :
    build program args accounts = .error (.valueMismatch "proof" (.vec (.bytes 32))) := by
  unfold build
  rw [RecordType.encode_of_long_proof args h]
  rfl

end MerkleAirdrop.Instruction
