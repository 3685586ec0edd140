/-
  MerkleAirdrop.Proofs.Record.Json
  ────────────────────────────────
  **THE NINE TYPES THAT HAVE A TEXT, AND THAT THE TEXT SAYS ALL ABOUT A
  VALUE.**

      SchemaType.json_round_trip   each value is read back from its text on
                                   one line and from its text over lines

  The eight records are joined by the custody of lamports, which has fields
  but no tag.
-/
import MerkleAirdrop.Account.SolCustody
import MerkleAirdrop.Proofs.Record.Lawful
import MerkleAirdrop.Proofs.Schema.Json

namespace MerkleAirdrop

/-! ## §1. Each type is lawful. -/

theorem Kind.holds_hashes (hashes : List Hash) :
    (Kind.vec (.bytes 32)).Holds (.list (hashes.map fun node => .bytes node.toList)) := by
  intro item hitem
  obtain ⟨node, _, rfl⟩ := List.mem_map.1 hitem
  exact node.length_toList

instance : LawfulSchema Distributor where
  holds r :=
    .cons trivial <| .cons trivial <| .cons r.root.length_toList <| .cons trivial <|
    .cons trivial <| .cons trivial <| .cons trivial <| .cons trivial <| .cons trivial <|
    .cons trivial <| .cons trivial <| .cons trivial <| .cons trivial <| .cons trivial .nil
  takes := LawfulRecord.takes
  nodup := by decide

instance : LawfulSchema ClaimStatus where
  holds _ := .cons trivial <| .cons trivial <| .cons trivial <| .cons trivial .nil
  takes := LawfulRecord.takes
  nodup := by decide

instance : LawfulSchema NewDistributor where
  holds r :=
    .cons trivial <| .cons r.root.length_toList <| .cons trivial <| .cons trivial <|
    .cons trivial <| .cons trivial .nil
  takes := LawfulRecord.takes
  nodup := by decide

instance : LawfulSchema NewClaim where
  holds r := .cons trivial <| .cons trivial <| .cons (Kind.holds_hashes r.proof) .nil
  takes := LawfulRecord.takes
  nodup := by decide

instance : LawfulSchema ClaimLocked where
  holds _ := .nil
  takes := LawfulRecord.takes
  nodup := .nil

instance : LawfulSchema Clawback where
  holds _ := .nil
  takes := LawfulRecord.takes
  nodup := .nil

instance : LawfulSchema SetAdmin where
  holds _ := .nil
  takes := LawfulRecord.takes
  nodup := .nil

instance : LawfulSchema WithdrawCustodySol where
  holds _ := .cons trivial .nil
  takes := LawfulRecord.takes
  nodup := by decide

instance : LawfulSchema SolCustody where
  holds _ := .cons trivial <| .cons trivial .nil
  takes c := .next rfl <| .next rfl <| .pure c
  nodup := by decide

/-! ## §2. One type for all of them. -/

/-- The nine types that have a text. -/
inductive SchemaType where
  | record (t : RecordType)
  | solCustody
  deriving DecidableEq, Repr

namespace SchemaType

/-- The values of a type. -/
def Carrier : SchemaType → Type
  | record t => t.Carrier
  | solCustody => SolCustody

instance : (t : SchemaType) → Schema t.Carrier
  | record t => inferInstanceAs (Schema t.Carrier)
  | solCustody => inferInstanceAs (Schema SolCustody)

instance : (t : SchemaType) → LawfulSchema t.Carrier
  | record .distributor => inferInstanceAs (LawfulSchema Distributor)
  | record .claimStatus => inferInstanceAs (LawfulSchema ClaimStatus)
  | record .newDistributor => inferInstanceAs (LawfulSchema NewDistributor)
  | record .newClaim => inferInstanceAs (LawfulSchema NewClaim)
  | record .claimLocked => inferInstanceAs (LawfulSchema ClaimLocked)
  | record .clawback => inferInstanceAs (LawfulSchema Clawback)
  | record .setAdmin => inferInstanceAs (LawfulSchema SetAdmin)
  | record .withdrawCustodySol => inferInstanceAs (LawfulSchema WithdrawCustodySol)
  | solCustody => inferInstanceAs (LawfulSchema SolCustody)

/-! ## §3. Texts. -/

/-- **Each value is read back from its text.**  So what was read from any text
is read again from the text it is written as, and values that differ have
different texts, on one line, over lines and one of each. -/
theorem json_round_trip (t : SchemaType) :
    (∀ r : t.Carrier, Schema.parse? (Schema.toJson r).compact = some r
      ∧ Schema.parse? (Schema.toJson r).pretty = some r)
    ∧ (∀ (text : String) (r : t.Carrier), Schema.parse? text = some r →
        (Schema.parse? (Schema.toJson r).compact : Option t.Carrier) = Schema.parse? text
        ∧ (Schema.parse? (Schema.toJson r).pretty : Option t.Carrier) = Schema.parse? text)
    ∧ ∀ r r' : t.Carrier, r ≠ r' →
        (Schema.toJson r).compact ≠ (Schema.toJson r').compact
        ∧ (Schema.toJson r).pretty ≠ (Schema.toJson r').pretty
        ∧ (Schema.toJson r).compact ≠ (Schema.toJson r').pretty := by
  have hread : ∀ r : t.Carrier, Schema.parse? (Schema.toJson r).compact = some r
      ∧ Schema.parse? (Schema.toJson r).pretty = some r := Schema.parse?_toJson
  -- a text is read as at most one value
  have hunique : ∀ {r r' : t.Carrier} {text text' : String}, Schema.parse? text = some r →
      Schema.parse? text' = some r' → r ≠ r' → text ≠ text' := by
    intro r r' text text' h h' hne htext
    rw [htext, h'] at h
    exact hne (Option.some.inj h).symm
  refine ⟨hread, ?_, ?_⟩
  · intro text r h
    rw [h]
    exact hread r
  · intro r r' hne
    exact ⟨hunique (hread r).1 (hread r').1 hne, hunique (hread r).2 (hread r').2 hne,
      hunique (hread r).1 (hread r').2 hne⟩

example : (Schema.toJson (⟨1, 18446744073709551615, []⟩ : NewClaim)).compact =
    "\x7b\"amountUnlocked\":\"1\",\"amountLocked\":\"18446744073709551615\",\"proof\":[]\x7d" := by
  decide +kernel

end SchemaType

end MerkleAirdrop
