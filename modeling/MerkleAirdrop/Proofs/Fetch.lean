/-
  MerkleAirdrop.Proofs.Fetch
  ──────────────────────────
  **ONE READ OF AN ACCOUNT, AND MANY AT ONCE.**

  Whatever is fetched, an account is inspected in one way (`inspect`): one
  that is absent gives nothing, one of a foreign owner is refused before its
  data is looked at, and only then is it read.  So a result that was given
  stems from an authentic account (`Authentic`).

      inspect_eq_ok_iff      what is given is authentic, and all that is
                             authentic is given
      fetchMultiple_eq_mapM  a batch is fetched as its addresses one by one
      fetchMultiple_outcome  it gives what they give, or the error of the first
                             that fails
-/
import MerkleAirdrop.Account.ClaimStatus
import MerkleAirdrop.Fetch
import MerkleAirdrop.Program
import MerkleAirdrop.Proofs.Except

namespace MerkleAirdrop

variable {α : Type}

/-! ## §1. One account. -/

/-- What comes of an account that has to belong to `owner` and is then read. -/
def inspect (address owner : Address) (read : Account → Except Error α) :
    Option Account → Except Error (Option α)
  | none => .ok none
  | some account => do
    account.checkOwner address owner
    some <$> read account

/-- What is given for an account: nothing if it is absent, else what is read of
it, which belongs to `owner`. -/
inductive Authentic (owner : Address) (read : Account → Except Error α) :
    Option Account → Option α → Prop
  | absent : Authentic owner read none none
  | present {account : Account} {record : α} (howner : account.owner = owner)
      (hread : read account = .ok record) : Authentic owner read (some account) (some record)

section

variable {address owner : Address} {read : Account → Except Error α} {account : Account}

theorem checkOwner_of_eq (h : account.owner = owner) : account.checkOwner address owner = .ok () :=
  if_pos h

theorem inspect_of_owner (h : account.owner = owner) :
    inspect address owner read (some account) = (read account).map some := by
  show (account.checkOwner address owner >>= fun _ => some <$> read account) = _
  rw [checkOwner_of_eq h]
  rfl

/-- The owner is checked before anything is read. -/
theorem inspect_of_foreign (h : account.owner ≠ owner) :
    inspect address owner read (some account)
      = .error (.wrongOwner address owner account.owner) := by
  show (account.checkOwner address owner >>= fun _ => some <$> read account) = _
  rw [Account.checkOwner, if_neg h]
  rfl

/-- **What is given is authentic, and all that is authentic is given.** -/
theorem inspect_eq_ok_iff {account? : Option Account} {record? : Option α} :
    inspect address owner read account? = .ok record? ↔ Authentic owner read account? record? := by
  constructor
  · intro h
    cases account? with
    | none =>
      cases h
      exact .absent
    | some account =>
      by_cases howner : account.owner = owner
      · rw [inspect_of_owner howner, Except.map_eq_ok_iff] at h
        obtain ⟨record, hread, rfl⟩ := h
        exact .present howner hread
      · rw [inspect_of_foreign howner] at h
        cases h
  · intro h
    cases h with
    | absent => rfl
    | present howner hread => rw [inspect_of_owner howner, hread]; rfl

end

/-! ## §2. What is fetched is inspected. -/

/-- A node that knows a ledger answers from it. -/
theorem Node.account_ofLedger (ledger : Ledger) (address : Address) :
    (Node.ofLedger ledger).transport.account address = .ok (ledger.find? address) :=
  rfl

theorem decodeOwned_eq_inspect [Record α] (address program : Address) (account? : Option Account) :
    (decodeOwned address program account? : Except Error (Option α))
      = inspect address program (fun account => Record.decode account.data) account? := by
  cases account? <;> rfl

theorem fetch_eq_inspect [Record α] {transport : Transport} {address : Address}
    {account? : Option Account} (h : transport.account address = .ok account?)
    (program : Address) : (fetch transport address program : Except Error (Option α))
      = inspect address program (fun account => Record.decode account.data) account? := by
  unfold fetch
  rw [h]
  exact decodeOwned_eq_inspect address program account?

/-- The custody of an owner is inspected too, as an account of the system
program whose data is not looked at. -/
theorem fetchSolCustody_eq_inspect {transport : Transport} {owner program address : Address}
    (haddress : SolCustody.address program owner = .ok address) {account? : Option Account}
    (h : transport.account address = .ok account?) :
    fetchSolCustody transport owner program
      = inspect address Program.system (fun account => .ok ⟨owner, account.lamports⟩) account? := by
  unfold fetchSolCustody
  rw [haddress]
  show (transport.account address >>= _) = _
  rw [h]
  cases account? with
  | none => rfl
  | some account =>
    show some <$> SolCustody.ofAccount owner address account = _
    by_cases howner : account.owner = Program.system
    · rw [inspect_of_owner howner, SolCustody.ofAccount, checkOwner_of_eq howner]
      rfl
    · rw [inspect_of_foreign howner, SolCustody.ofAccount, Account.checkOwner, if_neg howner]
      rfl

/-! ## §3. Many accounts. -/

variable [Record α]

/-- If the batch answers for each address what the address alone is answered,
the batch is fetched as its addresses one after the other. -/
theorem fetchMultiple_eq_mapM {transport : Transport} {addresses : List Address}
    {accounts : List (Option Account)} (hbatch : transport.accounts addresses = .ok accounts)
    (haligned : List.Forall₂ (fun address account? => transport.account address = .ok account?)
      addresses accounts) (program : Address) :
    (fetchMultiple transport addresses program : Except Error (List (Option α)))
      = addresses.mapM (fetch transport · program) := by
  unfold fetchMultiple
  rw [hbatch]
  show (if accounts.length = addresses.length then _ else _) = _
  rw [if_pos haligned.length_eq.symm]
  clear hbatch
  induction haligned with
  | nil => rfl
  | @cons address account? addresses accounts haccount _ ih =>
    rw [List.zip_cons_cons, List.mapM_cons, List.mapM_cons, ih, fetch_eq_inspect haccount]
    exact congrArg (· >>= _) (decodeOwned_eq_inspect address program account?)

/-- **Whatever a batch gives stems from authentic accounts.** -/
theorem exists_authentic_of_fetchMultiple {transport : Transport} {addresses : List Address}
    {program : Address} {records : List (Option α)}
    (h : fetchMultiple transport addresses program = .ok records) :
    ∃ accounts, transport.accounts addresses = .ok accounts ∧
      List.Forall₂ (Authentic program fun account => Record.decode account.data)
        accounts records := by
  obtain ⟨accounts, hbatch, h⟩ := Except.bind_eq_ok_iff.1 h
  refine ⟨accounts, hbatch, ?_⟩
  split at h
  next hlength =>
    -- the pairs that were read are the accounts with their addresses
    have hpairs : List.Forall₂ (fun (pair : Address × Option Account) record? =>
        Authentic program (fun account => Record.decode account.data) pair.2 record?)
        (addresses.zip accounts) records := by
      refine (Except.mapM_eq_ok_iff.1 h).imp fun (address, account?) record? hpair => ?_
      change decodeOwned address program account? = _ at hpair
      rw [decodeOwned_eq_inspect] at hpair
      exact inspect_eq_ok_iff.1 hpair
    rw [← List.map_snd_zip (Nat.le_of_eq hlength), List.forall₂_map_left_iff]
    exact hpairs
  next => cases h

/-- A node that knows a ledger answers a batch as it answers its addresses. -/
theorem Node.aligned_ofLedger (ledger : Ledger) (addresses : List Address) :
    List.Forall₂
      (fun address account? => (Node.ofLedger ledger).transport.account address = .ok account?)
      addresses (addresses.map ledger.find?) := by
  rw [List.forall₂_map_right_iff]
  exact List.forall₂_same.2 fun address _ => Node.account_ofLedger ledger address

/-- **A batch gives what its addresses give one by one.**

A batch that is not answered fails as the request did, and one that is answered
with another number of accounts fails whatever these hold.  If each address is
answered as it is alone, the batch succeeds exactly if each of its addresses
does, with their results in order, and else fails as the first of them that
fails.  Whatever a batch gives stems from authentic accounts. -/
theorem fetchMultiple_outcome (transport : Transport) (addresses : List Address)
    (program : Address) :
    (∀ e, transport.accounts addresses = .error e →
      (fetchMultiple transport addresses program : Except Error (List (Option α))) = .error e) ∧
    (∀ accounts, transport.accounts addresses = .ok accounts →
      accounts.length ≠ addresses.length →
      (fetchMultiple transport addresses program : Except Error (List (Option α)))
        = .error (.accountCount addresses.length accounts.length)) ∧
    (∀ accounts, transport.accounts addresses = .ok accounts →
      List.Forall₂ (fun address account? => transport.account address = .ok account?)
        addresses accounts →
      (∀ records : List (Option α), fetchMultiple transport addresses program = .ok records ↔
        List.Forall₂ (fun address record? => fetch transport address program = .ok record?)
          addresses records) ∧
      ∀ e, (fetchMultiple transport addresses program : Except Error (List (Option α)))
          = .error e ↔
        ∃ before address after, addresses = before ++ address :: after ∧
          (∀ other ∈ before, ∃ record? : Option α, fetch transport other program = .ok record?) ∧
          (fetch transport address program : Except Error (Option α)) = .error e) ∧
    ∀ records : List (Option α), fetchMultiple transport addresses program = .ok records →
      ∃ accounts, transport.accounts addresses = .ok accounts ∧
        List.Forall₂ (Authentic program fun account => Record.decode account.data)
          accounts records := by
  refine ⟨?_, ?_, ?_, ?_⟩
  · intro e hbatch
    unfold fetchMultiple
    rw [hbatch]
    rfl
  · intro accounts hbatch hlength
    unfold fetchMultiple
    rw [hbatch]
    show (if accounts.length = addresses.length then _ else _) = _
    rw [if_neg hlength]
    rfl
  · intro accounts hbatch haligned
    rw [fetchMultiple_eq_mapM hbatch haligned]
    exact ⟨fun records => Except.mapM_eq_ok_iff, fun e => Except.mapM_eq_error_iff⟩
  · exact fun records => exists_authentic_of_fetchMultiple

/-- A ledger that holds a claimant's account, all zero behind its discriminator,
one of the system program, and one that is cut short. -/
def mixedLedger : Ledger :=
  ((Ledger.empty.put Program.token
      ⟨Program.airdrop, 0, [22, 183, 249, 157, 247, 95, 150, 96] ++ List.replicate 56 0⟩).put
    Program.associatedToken ⟨Program.system, 1, []⟩).put
    Program.airdrop ⟨Program.airdrop, 2, [22, 183]⟩

/-- In the ledger a batch succeeds that asks twice for the account and once for
an absent one; of a foreign and a short account the first is told; a node that
does not answer and one that answers too little fail the batch. -/
theorem fetchMultiple_outcome_mixed :
    fetchMultiple (Node.ofLedger mixedLedger).transport
        [Program.token, Program.system, Program.token] Program.airdrop
      = .ok [some (⟨Program.system, 0, 0, 0⟩ : ClaimStatus), none,
          some ⟨Program.system, 0, 0, 0⟩] ∧
    (fetchMultiple (Node.ofLedger mixedLedger).transport
        [Program.system, Program.associatedToken, Program.airdrop] Program.airdrop
        : Except Error (List (Option ClaimStatus)))
      = .error (.wrongOwner Program.associatedToken Program.airdrop Program.system) ∧
    (fetchMultiple Node.unreachable.transport [Program.token] Program.airdrop
        : Except Error (List (Option ClaimStatus)))
      = .error (.requestFailed none) ∧
    (fetchMultiple (Node.transport ⟨mixedLedger, none, some 1⟩)
        [Program.airdrop, Program.token] Program.airdrop
        : Except Error (List (Option ClaimStatus)))
      = .error (.accountCount 2 1) := by
  refine ⟨?_, ?_, ?_, ?_⟩
  · refine (((fetchMultiple_outcome _ _ _).2.2.1 _ rfl
      (Node.aligned_ofLedger mixedLedger _)).1 _).2 ?_
    exact .cons rfl (.cons rfl (.cons rfl .nil))
  · refine (((fetchMultiple_outcome _ _ _).2.2.1 _ rfl
      (Node.aligned_ofLedger mixedLedger _)).2 _).2 ?_
    refine ⟨[Program.system], Program.associatedToken, [Program.airdrop], rfl, ?_, rfl⟩
    exact List.forall_mem_singleton.2 ⟨none, rfl⟩
  · exact (fetchMultiple_outcome _ _ _).1 _ rfl
  · refine (fetchMultiple_outcome (Node.transport ⟨mixedLedger, none, some 1⟩)
      [Program.airdrop, Program.token] Program.airdrop).2.1
      [some ⟨Program.airdrop, 2, [22, 183]⟩] rfl ?_
    decide

end MerkleAirdrop
