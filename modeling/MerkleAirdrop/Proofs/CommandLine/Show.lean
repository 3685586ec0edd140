/-
  MerkleAirdrop.Proofs.CommandLine.Show
  ─────────────────────────────────────
  **WHAT IS SHOWN IS AUTHENTIC, AND NOTHING ELSE MATTERS.**

  The three commands that show something derive an address, look it up,
  inspect the account there and print what they read.  So each of them is a
  function of one account (`shown`), and what holds of that function holds of
  every run (`Shows`).

      shows_of_eq_shown   a command that is such a function shows an account if
                          it is authentic, and tells what was read of it
      show_authentic      so do the three commands
-/
import MerkleAirdrop.Proofs.CommandLine.RoundTrip
import MerkleAirdrop.Proofs.Fetch
import MerkleAirdrop.Proofs.Record.Json

namespace MerkleAirdrop

/-- What remains is the difference, cut off at zero. -/
theorem ClaimStatus.toNat_lockedAmountRemaining (status : ClaimStatus) :
    status.lockedAmountRemaining.toNat
      = status.lockedAmount.toNat - status.lockedAmountWithdrawn.toNat := by
  unfold lockedAmountRemaining
  split
  next hle => exact UInt64.toNat_sub_of_le _ _ hle
  next hlt =>
    have hless : status.lockedAmount.toNat < status.lockedAmountWithdrawn.toNat :=
      Nat.lt_of_not_le hlt
    exact (Nat.sub_eq_zero_of_le (Nat.le_of_lt hless)).symm

namespace CommandLine

/-! ## §1. From an account to what is shown. -/

section

variable {α : Type}

/-- What is shown of an account that has to belong to `owner` and is then
read. -/
def shown (address owner : Address) (read : Account → Except Error α) (write : α → Json)
    (failed missing : String) (account? : Option Account) : Except Failure String := do
  let record ← expect (inspect address owner read account?) failed missing
  return printed (write record)

variable {address owner : Address} {read : Account → Except Error α} {write : α → Json}
  {failed missing : String} {account : Account}

theorem shown_of_owner {record : α} (howner : account.owner = owner)
    (hread : read account = .ok record) :
    shown address owner read write failed missing (some account)
      = .ok (printed (write record)) := by
  unfold shown
  rw [inspect_of_owner howner, hread]
  rfl

/-- The owner is told, whatever the account holds. -/
theorem shown_of_foreign (howner : account.owner ≠ owner) :
    shown address owner read write failed missing (some account)
      = .error ⟨[some failed, (Error.wrongOwner address owner account.owner).message?]⟩ := by
  unfold shown
  rw [inspect_of_foreign howner]
  rfl

/-- **What is shown was read from an authentic account.** -/
theorem exists_of_shown {account? : Option Account} {text : String}
    (h : shown address owner read write failed missing account? = .ok text) :
    ∃ account record, account? = some account ∧ account.owner = owner ∧
      read account = .ok record ∧ text = printed (write record) := by
  unfold shown at h
  obtain ⟨record, hexpect, htext⟩ := Except.bind_eq_ok_iff.1 h
  cases hinspect : inspect address owner read account? with
  | error e =>
    rw [hinspect] at hexpect
    cases hexpect
  | ok record? =>
    rw [hinspect] at hexpect
    -- what was given is authentic, and it is not nothing
    cases inspect_eq_ok_iff.1 hinspect with
    | absent => cases hexpect
    | present howner hread =>
      cases hexpect
      exact ⟨_, _, rfl, howner, hread, (Except.ok.inj htext).symm⟩

end

/-! ## §2. Runs that show an account. -/

/-- The node at this url, or at the one that is asked where none is named, knows a
ledger and answers. -/
def Knows (network : Network) (url? : Option String) (ledger : Ledger) : Prop :=
  network (url?.getD Invocation.defaultRpcUrl) = (Node.ofLedger ledger).transport

/-- A node that every url leads to is the one that is asked. -/
theorem knows_ofLedger (url? : Option String) (ledger : Ledger) :
    Knows (Node.ofLedger ledger).transport url? ledger := rfl

/-- Under this program, the command with flags of these values shows the account
at an address, which has to belong to `owner` and is then read; what it prints
tells what was read.  The node that is asked knows a ledger and answers. -/
structure Shows {α : Type} (program? : Option Address) (name : String) (a : Assignment)
    (address owner : Address) (read : Account → Except Error α) (Tells : String → α → Prop) :
    Prop where
  /-- Flags of these values can be given. -/
  exists_line : ∀ url?, ∃ arguments, Line [] url? program? name a arguments
  /-- What is authentic is shown. -/
  complete : ∀ {environment url? arguments network} {ledger : Ledger} {account : Account}
      {record : α},
    Line environment url? program? name a arguments → Knows network url? ledger →
    ledger.find? address = some account → account.owner = owner → read account = .ok record →
    ∃ text, run network environment arguments = .printed text ∧ Tells text record
  /-- What is shown is authentic. -/
  sound : ∀ {environment url? arguments network} {ledger : Ledger} {text : String},
    Line environment url? program? name a arguments → Knows network url? ledger →
    run network environment arguments = .printed text →
    ∃ account record, ledger.find? address = some account ∧ account.owner = owner ∧
      read account = .ok record ∧ Tells text record
  /-- An account of another owner is refused for its owner, whatever it
  holds. -/
  foreign : ∀ {environment url? arguments network} {ledger : Ledger} {account : Account},
    Line environment url? program? name a arguments → Knows network url? ledger →
    ledger.find? address = some account → account.owner ≠ owner →
    ∃ failure, run network environment arguments = .failed failure ∧
      failure.chain.getLast? = some (Error.wrongOwner address owner account.owner).message?
  /-- The outcome depends on the account at the address alone. -/
  frame : ∀ {environment environment' url? url?' arguments arguments' network network'}
      {ledger ledger' : Ledger},
    Line environment url? program? name a arguments → Knows network url? ledger →
    Line environment' url?' program? name a arguments' → Knows network' url?' ledger' →
    ledger.find? address = ledger'.find? address →
    run network environment arguments = run network' environment' arguments'

/-- **A command that is a function of one account shows what is authentic.** -/
theorem shows_of_eq_shown {α : Type} {program? : Option Address} {name : String} {a : Assignment}
    {command : Command} {address owner : Address} {read : Account → Except Error α}
    {write : α → Json} {failed missing : String} {Tells : String → α → Prop}
    (ask : Transport → Except Failure String)
    (hline : ∀ url?, ∃ arguments, Line [] url? program? name a arguments)
    (hasks : AsksFor name a command)
    (hrun : ∀ url network,
      Invocation.run ⟨url, program?.getD Program.airdrop, command⟩ network = ask (network url))
    (hask : ∀ ledger, ask (Node.ofLedger ledger).transport
      = shown address owner read write failed missing (ledger.find? address))
    (htells : ∀ record, Tells (printed (write record)) record) :
    Shows program? name a address owner read Tells := by
  have houtcome : ∀ {environment url? arguments network ledger},
      Line environment url? program? name a arguments → Knows network url? ledger →
      run network environment arguments
        = .ofResult (shown address owner read write failed missing (ledger.find? address)) := by
    intro environment url? arguments network ledger h hknows
    rw [h.run_eq hasks, hrun, hknows, hask]
  refine ⟨hline, ?_, ?_, ?_, ?_⟩
  · intro environment url? arguments network ledger account record h hknows haccount howner hread
    refine ⟨printed (write record), ?_, htells record⟩
    rw [houtcome h hknows, haccount, shown_of_owner howner hread]
    rfl
  · intro environment url? arguments network ledger text h hknows htext
    rw [houtcome h hknows] at htext
    cases hshown : shown address owner read write failed missing (ledger.find? address) with
    | error failure =>
      rw [hshown] at htext
      cases htext
    | ok text' =>
      rw [hshown] at htext
      cases htext
      obtain ⟨account, record, haccount, howner, hread, rfl⟩ := exists_of_shown hshown
      exact ⟨account, record, haccount, howner, hread, htells record⟩
  · intro environment url? arguments network ledger account h hknows haccount howner
    refine ⟨⟨[some failed, (Error.wrongOwner address owner account.owner).message?]⟩, ?_, rfl⟩
    rw [houtcome h hknows, haccount, shown_of_foreign howner]
    rfl
  · intro environment environment' url? url?' arguments arguments' network network' ledger ledger'
      h hknows h' hknows' hsame
    rw [houtcome h hknows, houtcome h' hknows', hsame]

/-! ## §3. The three commands. -/

section

variable {program address : Address} (ledger : Ledger)

theorem showDistributor_eq_shown {seeds : DistributorSeeds}
    (h : (seeds.derivation program).address = .ok address) :
    showDistributor (Node.ofLedger ledger).transport program seeds
      = shown address program (fun account => (Record.decode account.data : Except Error Distributor))
          Schema.toJson s!"failed to read merkle distributor {Address.text address}"
          s!"merkle distributor {Address.text address} not found" (ledger.find? address) := by
  unfold showDistributor shown
  rw [plainly_eq_ok h, ← fetch_eq_inspect (Node.account_ofLedger ledger address)]
  rfl

theorem showClaimStatus_eq_shown {distributor claimant : Address}
    (h : ClaimStatus.address program claimant distributor = .ok address) :
    showClaimStatus (Node.ofLedger ledger).transport program distributor claimant
      = shown address program (fun account => (Record.decode account.data : Except Error ClaimStatus))
          claimStatusJson s!"failed to read claim status {Address.text address}"
          s!"claim status {Address.text address} not found" (ledger.find? address) := by
  unfold showClaimStatus shown
  rw [plainly_eq_ok h, ← fetch_eq_inspect (Node.account_ofLedger ledger address)]
  rfl

theorem showSolCustody_eq_shown {owner : Address}
    (h : SolCustody.address program owner = .ok address) :
    showSolCustody (Node.ofLedger ledger).transport program owner
      = shown address Program.system (fun account => .ok (⟨owner, account.lamports⟩ : SolCustody))
          Schema.toJson s!"failed to read sol custody of {Address.text owner}"
          s!"no sol custody funded for {Address.text owner}" (ledger.find? address) := by
  unfold showSolCustody shown
  rw [← fetchSolCustody_eq_inspect h (Node.account_ofLedger ledger address)]

end

/-- What is printed of a value is read back as the value. -/
theorem parse?_printed_toJson {α : Type} [Schema α] [LawfulSchema α] (a : α) :
    Schema.parse? (printed (Schema.toJson a)) = some a := by
  unfold Schema.parse?
  rw [parse?_printed (Schema.proper_toJson a)]
  exact Schema.ofJson?_toJson a

theorem parse?_printed_claimStatusJson (status : ClaimStatus) :
    Json.parse? (printed (claimStatusJson status)) = some (.object [
      ("claimStatus", Schema.toJson status),
      ("lockedAmountRemaining",
        .text (toString (status.lockedAmount.toNat - status.lockedAmountWithdrawn.toNat)))]) := by
  have hproper : (claimStatusJson status).Proper := by
    simp [claimStatusJson, Schema.proper_toJson]
  rw [parse?_printed hproper, claimStatusJson, Numeral.writeU64,
    ClaimStatus.toNat_lockedAmountRemaining]

theorem parse?_printed_solCustody (custody : SolCustody) :
    Json.parse? (printed (Schema.toJson custody)) = some (.object [
      ("owner", .text (Address.text custody.owner)),
      ("lamports", .text (toString custody.lamports.toNat))]) := by
  have hnames : (Schema.layout SolCustody).fields.map Field.memberName = ["owner", "lamports"] := by
    decide +kernel
  rw [parse?_printed (Schema.proper_toJson custody),
    Schema.toJson_eq_object custody hnames (List.cons_ne_nil _ _)]
  rfl

/-- **What is shown is authentic, what is authentic is shown, and nothing else
matters.**

A distributor and a claimant's account have to lie at the address that is
derived from the flags, belong to the program and hold a record of their type;
what is printed reads back as that record, a claimant's with what remains
locked.  A custody has to lie at its owner's address and to belong to the
system program; its lamports and its owner are printed, whatever data it
holds. -/
theorem show_authentic (program? : Option Address) :
    (∀ (seeds : DistributorSeeds) (address : Address),
      (seeds.derivation (program?.getD Program.airdrop)).address = .ok address →
      Shows program? "show-distributor" (seedValues seeds) address
        (program?.getD Program.airdrop) (fun account => Record.decode account.data)
        fun text (record : Distributor) => Schema.parse? text = some record) ∧
    (∀ distributor claimant address : Address,
      ClaimStatus.address (program?.getD Program.airdrop) claimant distributor = .ok address →
      Shows program? "show-claim-status" (claimantValues distributor claimant) address
        (program?.getD Program.airdrop) (fun account => Record.decode account.data)
        fun text (record : ClaimStatus) => ∃ status,
          Json.parse? text = some (.object [
            ("claimStatus", status),
            ("lockedAmountRemaining", .text
              (toString (record.lockedAmount.toNat - record.lockedAmountWithdrawn.toNat)))]) ∧
          Schema.ofJson? status = some record) ∧
    ∀ owner address : Address,
      SolCustody.address (program?.getD Program.airdrop) owner = .ok address →
      Shows program? "show-sol-custody" (ownerValues owner) address Program.system
        (fun account => .ok ⟨owner, account.lamports⟩)
        fun text (custody : SolCustody) => Json.parse? text = some (.object [
          ("owner", .text (Address.text custody.owner)),
          ("lamports", .text (toString custody.lamports.toNat))]) := by
  refine ⟨?_, ?_, ?_⟩
  · intro seeds address haddress
    exact shows_of_eq_shown (showDistributor · (program?.getD Program.airdrop) seeds)
      (fun url? => exists_line_showDistributor url? program? seeds)
      (asksFor_showDistributor seeds) (fun _ _ => rfl)
      (fun ledger => showDistributor_eq_shown ledger haddress) parse?_printed_toJson
  · intro distributor claimant address haddress
    exact shows_of_eq_shown
      (showClaimStatus · (program?.getD Program.airdrop) distributor claimant)
      (fun url? => exists_line_showClaimStatus url? program? distributor claimant)
      (asksFor_showClaimStatus distributor claimant) (fun _ _ => rfl)
      (fun ledger => showClaimStatus_eq_shown ledger haddress)
      fun record => ⟨_, parse?_printed_claimStatusJson record, Schema.ofJson?_toJson record⟩
  · intro owner address haddress
    exact shows_of_eq_shown (showSolCustody · (program?.getD Program.airdrop) owner)
      (fun url? => exists_line_showSolCustody url? program? owner)
      (asksFor_showSolCustody owner) (fun _ _ => rfl)
      (fun ledger => showSolCustody_eq_shown ledger haddress) parse?_printed_solCustody

/-- A distributor that is all zero behind its discriminator. -/
def blankDistributor : Account :=
  ⟨Program.airdrop, 0, [77, 119, 139, 70, 84, 247, 12, 26] ++ List.replicate 218 0⟩

/-- An authentic distributor is shown, and is shown alike among other accounts;
a claimant's account that the system program keeps is refused for that, cut
short though it is; a custody is shown though it holds data. -/
theorem show_authentic_forged :
    ∃ (distributor status custody : Address) (first second third : List String)
      (text text' : String) (failure : Failure),
      run (Node.ofLedger (Ledger.empty.put distributor blankDistributor)).transport [] first
        = .printed text ∧
      Schema.parse? text = some (⟨0, 0, Block.zero 32, Program.system, Program.system, 0, 0, 0, 0,
        0, 0, Program.system, Program.system, false⟩ : Distributor) ∧
      run (Node.ofLedger ((Ledger.empty.put Program.token ⟨Program.system, 1, []⟩).put
        distributor blankDistributor)).transport [] first = .printed text ∧
      run (Node.ofLedger (Ledger.empty.put status ⟨Program.system, 0, [22, 183]⟩)).transport []
        second = .failed failure ∧
      failure.chain.getLast?
        = some (Error.wrongOwner status Program.airdrop Program.system).message? ∧
      run (Node.ofLedger (Ledger.empty.put custody ⟨Program.system, 5, [1]⟩)).transport [] third
        = .printed text' ∧
      Json.parse? text' = some (.object [
        ("owner", .text (Address.text Program.system)), ("lamports", .text "5")]) := by
  have hput : ∀ (ledger : Ledger) address account,
      (ledger.put address account).find? address = some account := by
    intro ledger address account
    rw [Ledger.find?_put, if_pos rfl]
  obtain ⟨d, a, hd, ha⟩ := exists_derived
  have hcustody : (SolCustody.address Program.airdrop Program.system).toOption.isSome := by
    decide +kernel
  obtain ⟨custody, hcustody⟩ := Option.isSome_iff_exists.1 hcustody
  obtain ⟨hdistributors, hstatuses, hcustodies⟩ := show_authentic none
  have hfirst := hdistributors ⟨Program.system, Program.associatedToken, 0⟩ d.distributor
    (DistributorAddresses.address_of_derive hd)
  have hsecond := hstatuses d.distributor Program.token a.claimStatus
    (ClaimAddresses.derive_eq_ok_iff.1 ha).1
  have hthird := hcustodies Program.system custody (Except.toOption_eq_some_iff.1 hcustody)
  obtain ⟨first, hline⟩ := hfirst.exists_line none
  obtain ⟨second, hline'⟩ := hsecond.exists_line none
  obtain ⟨third, hline''⟩ := hthird.exists_line none
  obtain ⟨text, htext, htells⟩ := hfirst.complete hline (knows_ofLedger _ _)
    (hput .empty d.distributor blankDistributor) rfl rfl
  obtain ⟨failure, hfailure, hlast⟩ := hsecond.foreign hline' (knows_ofLedger _ _)
    (hput .empty a.claimStatus ⟨Program.system, 0, [22, 183]⟩) (by decide)
  obtain ⟨text', htext', htells'⟩ := hthird.complete hline'' (knows_ofLedger _ _)
    (hput .empty custody ⟨Program.system, 5, [1]⟩) rfl rfl
  refine ⟨d.distributor, a.claimStatus, custody, first, second, third, text, text', failure,
    htext, htells, ?_, hfailure, hlast, htext', htells'⟩
  -- only the account at the distributor's address counts
  rw [← htext]
  exact hfirst.frame hline (knows_ofLedger _ _) hline (knows_ofLedger _ _)
    ((hput _ _ _).trans (hput _ _ _).symm)

end CommandLine

end MerkleAirdrop
