/-
  MerkleAirdrop.Proofs.Claim
  ──────────────────────────
  **THE FLOWS BUILD WHAT THEY SAY, ON ACCOUNTS THAT BELONG TOGETHER.**

      claim_coherent                  a claim builds exactly the instructions
                                      its amounts call for, on one set of
                                      accounts, which belong together if they
                                      were derived
      createDistributor_names_token   a distributor is made under the token
                                      program, whatever program its vault was
                                      derived under

  A claimant's addresses carry their token program with them, a distributor's
  do not.  So the second flow is coherent for vaults of the token program
  alone.
-/
import MerkleAirdrop.Account.ClaimStatus
import MerkleAirdrop.Proofs.Derivation
import MerkleAirdrop.Proofs.Instruction.Build

namespace MerkleAirdrop

/-! ## §1. What a claim builds. -/

namespace ClaimAddresses

/-- The accounts that both instructions of a claim begin with. -/
def shared (a : ClaimAddresses) : List AccountMeta := [
  .writable a.distributor,
  .writable a.claimStatus,
  .writable a.source,
  .writable a.target,
  .signer a.claimant,
  .readOnly a.tokenProgram]

/-- What a claim asks for, one step for each amount that is not zero: the
accounts of the step and its call. -/
def steps (a : ClaimAddresses) (amountUnlocked amountLocked : UInt64) (proof : List Hash) :
    List (List AccountMeta × Call) :=
  (if 0 < amountUnlocked then
    [(a.shared ++ [.readOnly Program.system],
      .newClaim ⟨amountUnlocked, amountLocked, proof⟩)] else []) ++
  (if 0 < amountLocked then [(a.shared, .claimLocked ⟨⟩)] else [])

/-- Every step begins with the shared accounts, and the claimant alone signs. -/
theorem accounts_of_mem_steps {a : ClaimAddresses} {amountUnlocked amountLocked : UInt64}
    {proof : List Hash} {step : List AccountMeta × Call}
    (h : step ∈ a.steps amountUnlocked amountLocked proof) :
    step.1.take 6 = a.shared ∧ step.1.filter (·.isSigner) = [.signer a.claimant] := by
  simp only [steps, List.mem_append, List.mem_ite_nil_right, List.mem_singleton] at h
  obtain ⟨-, rfl⟩ | ⟨-, rfl⟩ := h <;> exact ⟨rfl, rfl⟩

end ClaimAddresses

/-- The instructions go to `program` and ask for these steps, one by one. -/
def Instruction.Follow (program : Address) (is : List Instruction)
    (steps : List (List AccountMeta × Call)) : Prop :=
  List.Forall₂ (fun i step => i.Asks program step.1 step.2) is steps

theorem Instruction.Follow.exists_step {program : Address} {is : List Instruction}
    {steps : List (List AccountMeta × Call)} (h : Follow program is steps) {i : Instruction}
    (hi : i ∈ is) : ∃ step ∈ steps, i.Asks program step.1 step.2 := by
  unfold Follow at h
  induction h with
  | nil => cases hi
  | @cons _ step _ _ hasks _ ih =>
    cases hi with
    | head => exact ⟨step, List.mem_cons_self, hasks⟩
    | tail _ hi =>
      obtain ⟨step, hstep, hasks⟩ := ih hi
      exact ⟨step, List.mem_cons_of_mem _ hstep, hasks⟩

/-- A part of a claim: nothing for an amount of zero, else the instruction
that was built. -/
theorem exists_whenPositive (amount : UInt64) (program : Address) {x : Except Error Instruction}
    {accounts : List AccountMeta} {call : Call}
    (h : 0 < amount → ∃ i, x = .ok i ∧ i.Asks program accounts call) :
    ∃ is, whenPositive amount x = .ok is ∧
      Instruction.Follow program is (if 0 < amount then [(accounts, call)] else []) := by
  unfold whenPositive
  split
  next hpos =>
    obtain ⟨i, hi, hasks⟩ := h hpos
    rw [hi]
    exact ⟨[i], rfl, .cons hasks .nil⟩
  next => exact ⟨[], rfl, .nil⟩

section

variable {amountUnlocked amountLocked : UInt64} {proof : List Hash} (a : ClaimAddresses)
  (program : Address)

/-- **A proof that is not used, or not too long, does not stop a claim.** -/
theorem exists_claim (h : ¬ (0 < amountUnlocked ∧ countLimit ≤ proof.length)) :
    ∃ is, claim amountUnlocked amountLocked proof a program = .ok is ∧
      Instruction.Follow program is (a.steps amountUnlocked amountLocked proof) := by
  obtain ⟨first, hfirst, hfirstSteps⟩ := exists_whenPositive amountUnlocked program fun hpos =>
    Instruction.exists_build .newClaim program
      (⟨amountUnlocked, amountLocked, proof⟩ : NewClaim) a.newClaim.metas
      (Nat.lt_of_not_le fun hlong => h ⟨hpos, hlong⟩)
  obtain ⟨second, hsecond, hsecondSteps⟩ := exists_whenPositive amountLocked program fun _ =>
    Instruction.exists_build .claimLocked program ClaimLocked.mk a.claimLocked.metas (by decide)
  refine ⟨first ++ second, ?_, List.rel_append hfirstSteps hsecondSteps⟩
  unfold claim
  exact Except.bind_eq_ok_iff.2 ⟨first, hfirst, Except.bind_eq_ok_iff.2 ⟨second, hsecond, rfl⟩⟩

theorem claim_of_long_proof (hpos : 0 < amountUnlocked) (hlong : countLimit ≤ proof.length) :
    claim amountUnlocked amountLocked proof a program
      = .error (.valueMismatch "proof" (.vec (.bytes 32))) := by
  have hfirst : whenPositive amountUnlocked
      (NewClaim.instruction ⟨amountUnlocked, amountLocked, proof⟩ a.newClaim program)
        = .error (.valueMismatch "proof" (.vec (.bytes 32))) := by
    unfold whenPositive NewClaim.instruction
    rw [if_pos hpos, Instruction.build_of_long_proof program _ _ hlong]
    rfl
  unfold claim
  dsimp only
  rw [hfirst]
  rfl

end

/-! ## §2. Claims on accounts that belong together. -/

/-- The accounts of a claim belong together: the tokens leave the listed
distributor's account and reach the listed claimant's, both for the mint and
under the listed token program, and the status is the claimant's at the
distributor, under the program it was derived for. -/
structure ClaimAddresses.Coherent (a : ClaimAddresses) (owner mint : Address) : Prop where
  claimStatus_eq : ClaimStatus.address owner a.claimant a.distributor = .ok a.claimStatus
  source_eq : tokenAccount a.distributor a.tokenProgram mint = .ok a.source
  target_eq : tokenAccount a.claimant a.tokenProgram mint = .ok a.target

theorem ClaimAddresses.coherent_of_derive {a : ClaimAddresses}
    {owner distributor claimant mint tokenProgram : Address}
    (h : derive owner distributor claimant mint tokenProgram = .ok a) : a.Coherent owner mint := by
  obtain ⟨hstatus, hsource, htarget, rfl, rfl, rfl⟩ := derive_eq_ok_iff.1 h
  exact ⟨hstatus, hsource, htarget⟩

/-- A claimant finds the vault that the creator has found. -/
theorem DistributorAddresses.exists_derive {a : ClaimAddresses}
    {owner mint creator distributor claimant tokenProgram : Address} {version : UInt64}
    (hseeds : (Derivation.distributor owner mint creator version).address = .ok distributor)
    (h : ClaimAddresses.derive owner distributor claimant mint tokenProgram = .ok a) :
    ∃ d, derive owner mint creator version tokenProgram = .ok d ∧
      d.distributor = a.distributor ∧ d.tokenVault = a.source := by
  obtain ⟨bump, hfind⟩ := Derivation.address_eq_ok_iff.1 hseeds
  obtain ⟨-, hsource, -, rfl, -, -⟩ := ClaimAddresses.derive_eq_ok_iff.1 h
  exact ⟨⟨a.distributor, bump, a.source⟩, derive_eq_ok_iff.2 ⟨hfind, hsource⟩, rfl, rfl⟩

/-- **A claim is its steps, on accounts that belong together.**

A claim fails only for an unlocked amount whose proof is too long to be
counted.  Else it is a first claim if there is an unlocked amount, then a claim
on what has vested if there is a locked one, and nothing more, all for the
program, all on the same six accounts, and signed by the claimant alone.

Where the addresses were derived for the distributor of some seeds, they
belong together, and the tokens leave the vault that is derived from the
seeds. -/
theorem claim_coherent (a : ClaimAddresses) (program : Address)
    (amountUnlocked amountLocked : UInt64) (proof : List Hash) :
    (if 0 < amountUnlocked ∧ countLimit ≤ proof.length then
      claim amountUnlocked amountLocked proof a program
        = .error (.valueMismatch "proof" (.vec (.bytes 32)))
    else
      ∃ is, claim amountUnlocked amountLocked proof a program = .ok is ∧
        Instruction.Follow program is (a.steps amountUnlocked amountLocked proof) ∧
        ∀ i ∈ is, i.accounts.take 6 = a.shared ∧
          i.accounts.filter (·.isSigner) = [.signer a.claimant]) ∧
    ∀ (owner mint creator : Address) (version : UInt64)
      (distributor claimant tokenProgram : Address),
      (Derivation.distributor owner mint creator version).address = .ok distributor →
      ClaimAddresses.derive owner distributor claimant mint tokenProgram = .ok a →
      a.distributor = distributor ∧ a.claimant = claimant ∧ a.tokenProgram = tokenProgram ∧
        a.Coherent owner mint ∧
        ∃ d, DistributorAddresses.derive owner mint creator version tokenProgram = .ok d ∧
          d.distributor = a.distributor ∧ d.tokenVault = a.source := by
  constructor
  · split
    next hlong => exact claim_of_long_proof a program hlong.1 hlong.2
    next hshort =>
      obtain ⟨is, his, hsteps⟩ := exists_claim a program hshort
      refine ⟨is, his, hsteps, fun i hi => ?_⟩
      -- an instruction lists the accounts of its step
      obtain ⟨step, hstep, hasks⟩ := hsteps.exists_step hi
      rw [hasks.accounts_eq]
      exact ClaimAddresses.accounts_of_mem_steps hstep
  · intro owner mint creator version distributor claimant tokenProgram hseeds hderive
    obtain ⟨-, -, -, hdistributor, hclaimant, htoken⟩ := ClaimAddresses.derive_eq_ok_iff.1 hderive
    exact ⟨hdistributor, hclaimant, htoken, ClaimAddresses.coherent_of_derive hderive,
      DistributorAddresses.exists_derive hseeds hderive⟩

/-- A distributor and a claimant at it whose addresses are found. -/
theorem exists_derived :
    ∃ d a, DistributorAddresses.derive Program.airdrop Program.system Program.associatedToken 0
        Program.token = .ok d ∧
      ClaimAddresses.derive Program.airdrop d.distributor Program.token Program.system
        Program.token = .ok a := by
  have hfound : (do
      let d ← DistributorAddresses.derive Program.airdrop Program.system
        Program.associatedToken 0 Program.token
      ClaimAddresses.derive Program.airdrop d.distributor Program.token Program.system
        Program.token).toOption.isSome := by decide +kernel
  obtain ⟨a, h⟩ := Option.isSome_iff_exists.1 hfound
  obtain ⟨d, hd, ha⟩ := Except.bind_eq_ok_iff.1 (Except.toOption_eq_some_iff.1 h)
  exact ⟨d, a, hd, ha⟩

theorem DistributorAddresses.address_of_derive {owner mint creator tokenProgram : Address}
    {version : UInt64} {d : DistributorAddresses}
    (h : derive owner mint creator version tokenProgram = .ok d) :
    (Derivation.distributor owner mint creator version).address = .ok d.distributor :=
  Derivation.address_eq_ok_iff.2 ⟨d.bump, (derive_eq_ok_iff.1 h).1⟩

/-- A claimant of both parts. -/
theorem claim_coherent_both :
    ∃ distributor a is,
      (Derivation.distributor Program.airdrop Program.system Program.associatedToken 0).address
        = .ok distributor ∧
      ClaimAddresses.derive Program.airdrop distributor Program.token Program.system
        Program.token = .ok a ∧
      a.Coherent Program.airdrop Program.system ∧
      claim 100 50 [] a Program.airdrop = .ok is ∧
      Instruction.Follow Program.airdrop is [
        (a.shared ++ [.readOnly Program.system], .newClaim ⟨100, 50, []⟩),
        (a.shared, .claimLocked ⟨⟩)] := by
  obtain ⟨d, a, hd, ha⟩ := exists_derived
  have hseeds := DistributorAddresses.address_of_derive hd
  obtain ⟨hbuilt, hderived⟩ := claim_coherent a Program.airdrop 100 50 []
  obtain ⟨is, his, hsteps, -⟩ := hbuilt
  obtain ⟨-, -, -, hcoherent, -⟩ := hderived _ _ _ _ _ _ _ hseeds ha
  exact ⟨d.distributor, a, is, hseeds, ha, hcoherent, his, hsteps⟩

/-! ## §3. A distributor is made under the token program. -/

/-- The accounts that a new distributor's instruction lists. -/
def DistributorAddresses.listed (d : DistributorAddresses) (mint creator : Address) :
    List AccountMeta := [
  .writable d.distributor,
  .readOnly mint,
  .readOnly d.tokenVault,
  .signer creator,
  .readOnly Program.system,
  .readOnly Program.associatedToken,
  .readOnly Program.token]

theorem exists_createDistributor (args : NewDistributor) (mint creator program : Address)
    (d : DistributorAddresses) :
    ∃ i, createDistributor args mint creator d program = .ok i ∧
      i.Asks program (d.listed mint creator) (.newDistributor args) :=
  -- only a first claim has a proof
  Instruction.exists_build .newDistributor program args (d.listed mint creator)
    (Nat.two_pow_pos 32)

/-- A vault lies at one token program's address only, up to collisions. -/
theorem tokenProgram_eq_or_collision {wallet mint vault tokenProgram tokenProgram' : Address}
    (h : tokenAccount wallet tokenProgram mint = .ok vault)
    (h' : tokenAccount wallet tokenProgram' mint = .ok vault) :
    tokenProgram = tokenProgram' ∨
      (Derivation.associatedToken wallet tokenProgram mint).Collide
        (.associatedToken wallet tokenProgram' mint) := by
  obtain ⟨bump, hfind⟩ := Derivation.address_eq_ok_iff.1 h
  obtain ⟨bump', hfind'⟩ := Derivation.address_eq_ok_iff.1 h'
  rcases Derivation.eq_or_collision_preimage hfind hfind' rfl with hsame | hcollision
  · exact .inl (Derivation.associatedToken.inj hsame).2.1
  · exact .inr ⟨_, _, hfind, hfind', rfl, hcollision⟩

/-- **A distributor is made under the token program, whatever program its
vault was derived under.**

The instruction is always built, and lists the distributor, the vault and the
token program.  The vault is the distributor's account under the program that
it was derived under; so it is the distributor's account under the listed
program where that is the same program and, unless what is hashed for the two
accounts is a collision, only there. -/
theorem createDistributor_names_token {owner mint creator tokenProgram : Address}
    {version : UInt64} {d : DistributorAddresses}
    (h : DistributorAddresses.derive owner mint creator version tokenProgram = .ok d)
    (args : NewDistributor) (program : Address) :
    (∃ i, createDistributor args mint creator d program = .ok i ∧
      i.Asks program (d.listed mint creator) (.newDistributor args)) ∧
    tokenAccount d.distributor tokenProgram mint = .ok d.tokenVault ∧
    (tokenProgram = Program.token →
      tokenAccount d.distributor Program.token mint = .ok d.tokenVault) ∧
    (tokenAccount d.distributor Program.token mint = .ok d.tokenVault →
      tokenProgram = Program.token ∨
        (Derivation.associatedToken d.distributor tokenProgram mint).Collide
          (.associatedToken d.distributor Program.token mint)) := by
  have hvault : tokenAccount d.distributor tokenProgram mint = .ok d.tokenVault :=
    (DistributorAddresses.derive_eq_ok_iff.1 h).2
  refine ⟨exists_createDistributor args mint creator program d, hvault, ?_, ?_⟩
  · rintro rfl
    exact hvault
  · intro hlisted
    exact tokenProgram_eq_or_collision hvault hlisted

/-- The newer token program: `TokenzQdBNbLqP5VEhdkAS6EPFLC1PHnBqCXEpPxuEb`. -/
def Program.token2022 : Address :=
  ⟨[6, 221, 246, 225, 238, 117, 143, 222, 24, 66, 93, 188, 228, 108, 205, 218, 182, 26, 252, 77,
    131, 185, 13, 39, 254, 189, 249, 40, 216, 161, 139, 252], rfl⟩

/-- A vault of the newer token program is not the distributor's account under
the older one. -/
theorem exists_newer_vault :
    ∃ d, DistributorAddresses.derive Program.airdrop Program.system Program.associatedToken 0
        Program.token2022 = .ok d ∧
      tokenAccount d.distributor Program.token Program.system ≠ .ok d.tokenVault := by
  have hvaults : (DistributorAddresses.derive Program.airdrop Program.system
      Program.associatedToken 0 Program.token2022).toOption.map (fun d =>
        (tokenAccount d.distributor Program.token Program.system).toOption == some d.tokenVault)
      = some false := by decide +kernel
  obtain ⟨d, hd, hother⟩ := Option.map_eq_some_iff.1 hvaults
  refine ⟨d, Except.toOption_eq_some_iff.1 hd, fun hsame => ?_⟩
  rw [Except.toOption_eq_some_iff.2 hsame, beq_self_eq_true] at hother
  cases hother

/-- A distributor whose vault belongs to the newer token program is made under
the older one, where it has no vault; one whose vault belongs to the older
program has it there. -/
theorem createDistributor_names_token_newer :
    let args : NewDistributor := ⟨0, Block.zero 32, 1000, 10, 100, 200⟩
    ∃ newer older i j,
      DistributorAddresses.derive Program.airdrop Program.system Program.associatedToken 0
        Program.token2022 = .ok newer ∧
      createDistributor args Program.system Program.associatedToken newer Program.airdrop = .ok i ∧
      i.accounts = newer.listed Program.system Program.associatedToken ∧
      tokenAccount newer.distributor Program.token2022 Program.system = .ok newer.tokenVault ∧
      tokenAccount newer.distributor Program.token Program.system ≠ .ok newer.tokenVault ∧
      DistributorAddresses.derive Program.airdrop Program.system Program.associatedToken 0
        Program.token = .ok older ∧
      createDistributor args Program.system Program.associatedToken older Program.airdrop = .ok j ∧
      j.accounts = older.listed Program.system Program.associatedToken ∧
      tokenAccount older.distributor Program.token Program.system = .ok older.tokenVault := by
  intro args
  obtain ⟨newer, hnewer, hother⟩ := exists_newer_vault
  obtain ⟨older, -, holder, -⟩ := exists_derived
  obtain ⟨⟨i, hi, hasks⟩, hvault, -⟩ := createDistributor_names_token hnewer args Program.airdrop
  obtain ⟨⟨j, hj, hasks'⟩, -, hsame, -⟩ :=
    createDistributor_names_token holder args Program.airdrop
  exact ⟨newer, older, i, j, hnewer, hi, hasks.accounts_eq, hvault, hother, holder, hj,
    hasks'.accounts_eq, hsame rfl⟩

/-- Neither is the newer program listed, nor is the vault the distributor's
account under the program that is. -/
theorem createDistributor_lists_older :
    ∃ d i, DistributorAddresses.derive Program.airdrop Program.system Program.associatedToken 0
        Program.token2022 = .ok d ∧
      createDistributor ⟨0, Block.zero 32, 1000, 10, 100, 200⟩ Program.system
        Program.associatedToken d Program.airdrop = .ok i ∧
      i.accounts.getLast? = some (.readOnly Program.token) ∧
      Program.token ≠ Program.token2022 ∧
      tokenAccount d.distributor Program.token Program.system ≠ .ok d.tokenVault := by
  obtain ⟨d, hd, hother⟩ := exists_newer_vault
  obtain ⟨i, hi, hasks⟩ := exists_createDistributor ⟨0, Block.zero 32, 1000, 10, 100, 200⟩
    Program.system Program.associatedToken Program.airdrop d
  refine ⟨d, i, hd, hi, ?_, by decide, hother⟩
  rw [hasks.accounts_eq]
  rfl

end MerkleAirdrop
