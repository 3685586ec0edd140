/-
  MerkleAirdrop.Proofs.Record.RoundTrip
  ─────────────────────────────────────
  **RECORDS ARE READ BACK FROM THEIR BYTES, AND BYTES FROM THEIR RECORDS.**

      RecordType.round_trip            the eight records, both ways
      RecordType.layouts_round_trip    their layouts, and every layout whose
                                       vectors have elements that take bytes

  One thing keeps a record from being written: a Merkle proof of `2 ^ 32`
  nodes or more.  One thing is lost when bytes are read: which nonzero byte
  stood for a distributor that was clawed back.
-/
import MerkleAirdrop.Proofs.Layout.RoundTrip
import MerkleAirdrop.Proofs.Record.Decode

namespace MerkleAirdrop

open Kind (TakesBytes)

/-! ## §1. One record. -/

namespace Record

variable {α : Type} [Record α]

theorem encode_of_fits {r : α} (h : (Schema.layout α).Fits (Schema.toValues r)) :
    encode r = .ok ((discriminator α).toList ++ (Schema.layout α).wire (Schema.toValues r)) := by
  unfold encode
  rw [Layout.encodeInto_of_fits h, Written.result_done]

theorem fits_of_encode {r : α} {bytes : List UInt8} (h : encode r = .ok bytes) :
    (Schema.layout α).Fits (Schema.toValues r) := by
  rw [← Layout.stop_encodeInto_iff _ _ (discriminator α).toList]
  unfold encode Written.result at h
  split at h
  next hstop => exact hstop
  next => cases h

variable [LawfulRecord α]

/-- **A record is read back from its bytes, whatever stands behind them.** -/
theorem decode_encode {r : α} {bytes : List UInt8} (h : encode r = .ok bytes)
    (rest : List UInt8) : decode (bytes ++ rest) = .ok r := by
  have hfits := fits_of_encode h
  rw [encode_of_fits hfits] at h
  injection h with hbytes
  -- The fields are read from behind the tag, not from the start.
  have hread := Layout.reads_wire LawfulRecord.vecElements hfits tagWidth rest
  rw [← hbytes, List.append_assoc, decode_tag]
  exact decodeFields_eq_ok_iff.2 ⟨_, hread⟩

/-- **A record that was read is written as the bytes it was read from**, but
for truth values. -/
theorem encode_decode {d : List UInt8} {r : α} (h : decode d = .ok r) :
    ∃ used rest, d = (discriminator α).toList ++ (used ++ rest) ∧
      ((Schema.layout α).boolMask (Schema.toValues r)).length = used.length ∧
      encode r = .ok ((discriminator α).toList
        ++ settle ((Schema.layout α).boolMask (Schema.toValues r)) used) := by
  obtain ⟨body, rfl⟩ := exists_body_of_decode h
  rw [decode_tag] at h
  obtain ⟨c', hread⟩ := decodeFields_eq_ok_iff.1 h
  -- The values that were read are those of `r`, so what they were read from
  -- is their wire form.
  obtain ⟨hfits, used, hrest, _, hmask, hsettle⟩ := Layout.passed_of_read _ hread
  refine ⟨used, c'.rest, ?_, hmask, ?_⟩
  · rw [← hrest]
  · rw [encode_of_fits hfits, hsettle]

end Record

/-! ## §2. Which records are written, and where truth values lie. -/

namespace Kind

/-- No part of the kind is a truth value. -/
def truthless : Kind → Bool
  | .bool => false
  | .array element _ | .vec element => element.truthless
  | _ => true

theorem flatMap_unmarked {items : List Value} {mask : Value → List Bool}
    {bytes : Value → List UInt8}
    (h : ∀ item, mask item = List.replicate (bytes item).length false) :
    items.flatMap mask = List.replicate (items.flatMap bytes).length false := by
  induction items with
  | nil => rfl
  | cons item items ih =>
    rw [List.flatMap_cons, List.flatMap_cons, List.length_append, ih, h,
      List.replicate_append_replicate]

theorem boolMask_of_truthless (k : Kind) : k.truthless = true → ∀ v : Value,
    k.boolMask v = List.replicate (k.wire v).length false := by
  induction k with
  | bool =>
    intro h
    cases h
  | array element length ih =>
    intro h v
    cases v with
    | list items => exact flatMap_unmarked (ih h)
    | _ => rfl
  | vec element ih =>
    intro h v
    cases v with
    | list items =>
      rw [boolMask, wire, flatMap_unmarked (ih h), List.length_append, Bytes.length_ofNat,
        List.replicate_append_replicate]
    | _ => rfl
  | _ =>
    intro _ v
    rfl

end Kind

theorem Layout.boolMask_of_truthless (fields : List Field) :
    (∀ field ∈ fields, field.kind.truthless = true) → ∀ values : List Value,
      Layout.boolMask ⟨fields⟩ values
        = List.replicate (Layout.wire ⟨fields⟩ values).length false := by
  unfold Layout.boolMask Layout.wire
  dsimp only
  induction fields with
  | nil =>
    intro _ values
    rfl
  | cons field fields ih =>
    intro h values
    rw [List.forall_mem_cons] at h
    cases values with
    | nil => rfl
    | cons value values =>
      rw [List.zipWith_cons_cons, List.zipWith_cons_cons, List.flatten_cons, List.flatten_cons,
        field.kind.boolMask_of_truthless h.1, ih h.2, List.length_append,
        List.replicate_append_replicate]

namespace RecordType

/-- The nodes of a record's proof; only the arguments of a first claim have
one. -/
def proofOf : (t : RecordType) → t.Carrier → List Hash
  | newClaim, r => r.proof
  | _, _ => []

/-- The bytes with a truth value in the last of a distributor's 226 bytes,
which says whether it was clawed back. -/
def settled : RecordType → List UInt8 → List UInt8
  | distributor, d => d.modify 225 truthByte
  | _, d => d

theorem fits_toValues (t : RecordType) (r : t.Carrier) (h : (t.proofOf r).length < countLimit) :
    (Schema.layout t.Carrier).Fits (Schema.toValues r) := by
  cases t with
  | distributor =>
    exact .cons trivial <| .cons trivial <| .cons r.root.length_toList <| .cons trivial <|
      .cons trivial <| .cons trivial <| .cons trivial <| .cons trivial <| .cons trivial <|
      .cons trivial <| .cons trivial <| .cons trivial <| .cons trivial <| .cons trivial .nil
  | claimStatus =>
    exact .cons trivial <| .cons trivial <| .cons trivial <| .cons trivial .nil
  | newDistributor =>
    exact .cons trivial <| .cons r.root.length_toList <| .cons trivial <| .cons trivial <|
      .cons trivial <| .cons trivial .nil
  | newClaim =>
    have hproof : (Kind.vec (.bytes 32)).Fits
        (.list (r.proof.map fun node => .bytes node.toList)) := by
      refine ⟨by rw [List.length_map]; exact h, fun item hitem => ?_⟩
      obtain ⟨node, _, rfl⟩ := List.mem_map.1 hitem
      exact node.length_toList
    exact .cons trivial <| .cons trivial <| .cons hproof .nil
  | claimLocked | clawback | setAdmin => exact List.Forall₂.nil
  | withdrawCustodySol => exact .cons trivial .nil

/-- A proof that is too long to be counted is the one cause for which a
record is not written. -/
theorem encode_of_long_proof (r : NewClaim) (h : countLimit ≤ r.proof.length) :
    Record.encode r = .error (.valueMismatch "proof" (.vec (.bytes 32))) := by
  have hlong : ¬ (r.proof.map fun node => Value.bytes node.toList).length < countLimit := by
    rw [List.length_map]
    omega
  -- The two amounts are written before the proof stops the writing.
  have hproof : Kind.write (.vec (.bytes 32))
      (.list (r.proof.map fun node => .bytes node.toList)) = .stopped (.vec (.bytes 32)) := by
    rw [Kind.write, if_neg hlong]
  unfold Record.encode Layout.encodeInto Layout.write
  simp only [Schema.layout, Schema.toValues, List.zipWith, Written.sequence, List.foldr,
    Field.write, hproof]
  rfl

theorem encode_outcome (t : RecordType) (r : t.Carrier) :
    if (t.proofOf r).length < countLimit then ∃ bytes, Record.encode r = .ok bytes
    else Record.encode r = .error (.valueMismatch "proof" (.vec (.bytes 32))) := by
  split
  next h => exact ⟨_, Record.encode_of_fits (t.fits_toValues r h)⟩
  next h =>
    cases t with
    | newClaim => exact encode_of_long_proof r (Nat.le_of_not_lt h)
    | _ => exact absurd (show ([] : List Hash).length < countLimit by decide) h

theorem boolMask_distributor (r : Distributor) :
    (Schema.layout Distributor).boolMask (Schema.toValues r)
      = List.replicate 217 false ++ [true] := by
  simp only [Layout.boolMask, Schema.layout, Schema.toValues, List.zipWith_cons_cons,
    List.zipWith_nil_left, Kind.boolMask, Kind.wire, Block.length_toList, length_bytesOfU64,
    length_bytesOfI64]
  rfl

theorem boolMask_eq_replicate (t : RecordType) (h : t ≠ distributor) (r : t.Carrier) :
    (Schema.layout t.Carrier).boolMask (Schema.toValues r)
      = List.replicate ((Schema.layout t.Carrier).wire (Schema.toValues r)).length false := by
  refine Layout.boolMask_of_truthless _ ?_ _
  cases t with
  | distributor => exact absurd rfl h
  | _ => decide

/-- What lies behind a tag and 217 bytes more is the truth value of a
distributor. -/
theorem settled_distributor (tag : Block tagWidth) {front : List UInt8}
    (hfront : front.length = 217) (b : UInt8) (rest : List UInt8) :
    distributor.settled (tag.toList ++ (front ++ b :: rest))
      = tag.toList ++ (front ++ truthByte b :: rest) := by
  have hplace : (tag.toList ++ front).length = 225 := by
    rw [List.length_append, tag.length_toList, hfront]
    rfl
  show List.modify _ 225 truthByte = _
  rw [← List.append_assoc, ← List.append_assoc, ← hplace]
  exact List.modifyTailIdx_add _ 0 (tag.toList ++ front) (b :: rest)

/-- What `settle` leaves of the bytes a record was read from stands at the
front of `settled`. -/
theorem settle_isPrefix (t : RecordType) (r : t.Carrier) (used rest : List UInt8)
    (hmask : ((Schema.layout t.Carrier).boolMask (Schema.toValues r)).length = used.length) :
    (Record.discriminator t.Carrier).toList
        ++ settle ((Schema.layout t.Carrier).boolMask (Schema.toValues r)) used
      <+: t.settled ((Record.discriminator t.Carrier).toList ++ (used ++ rest)) := by
  by_cases ht : t = distributor
  · subst ht
    have hmarks : (Schema.layout distributor.Carrier).boolMask (Schema.toValues r)
        = List.replicate 217 false ++ [true] := boolMask_distributor r
    rw [hmarks] at hmask ⊢
    -- The mask marks the last byte alone, so that byte is split off.
    obtain ⟨front, b, rfl⟩ : ∃ front b, used = front ++ [b] :=
      ⟨_, _, (List.dropLast_append_getLast (List.ne_nil_of_length_eq_add_one hmask.symm)).symm⟩
    have hfront : front.length = 217 := by
      rw [List.length_append, List.length_append, List.length_replicate] at hmask
      exact (Nat.add_right_cancel hmask).symm
    have hsettle : settle (List.replicate 217 false ++ [true]) (front ++ [b])
        = front ++ [truthByte b] := by
      rw [← hfront, settle_append List.length_replicate, settle_unmarked]
      rfl
    rw [hsettle, List.append_assoc front, List.singleton_append,
      settled_distributor (Record.discriminator distributor.Carrier) hfront]
    exact ⟨rest, by simp⟩
  · -- Without a mark nothing was changed, and nothing is to be settled.
    have hsettled : ∀ d, t.settled d = d := by
      intro d
      cases t with
      | distributor => exact absurd rfl ht
      | _ => rfl
    rw [t.boolMask_eq_replicate ht r] at hmask ⊢
    rw [List.length_replicate] at hmask
    rw [hsettled, hmask, settle_unmarked, ← List.append_assoc]
    exact List.prefix_append _ _

/-- **Records and bytes are turned into each other.**  A record is written
unless its proof is too long to be counted, and is read back from its bytes
whatever stands behind them; bytes that were read are written again, but for
a distributor's truth value. -/
theorem round_trip (t : RecordType) :
    (∀ r : t.Carrier,
      (if (t.proofOf r).length < countLimit then ∃ bytes, Record.encode r = .ok bytes
        else Record.encode r = .error (.valueMismatch "proof" (.vec (.bytes 32))))
      ∧ ∀ bytes, Record.encode r = .ok bytes → ∀ rest, Record.decode (bytes ++ rest) = .ok r)
    ∧ ∀ (d : List UInt8) (r : t.Carrier), Record.decode d = .ok r →
        ∃ bytes, Record.encode r = .ok bytes ∧ bytes <+: t.settled d := by
  refine ⟨fun r => ⟨t.encode_outcome r, ?_⟩, ?_⟩
  · intro bytes h rest
    exact Record.decode_encode h rest
  · intro d r h
    obtain ⟨used, rest, rfl, hmask, hencode⟩ := Record.encode_decode h
    exact ⟨_, hencode, t.settle_isPrefix r used rest hmask⟩

/-- **Values are read back from their bytes, whatever stands behind them**:
in every layout whose vectors have elements that take bytes, as those of the
eight records are. -/
theorem layouts_round_trip :
    (∀ t : RecordType, t.layout.VecElements Kind.TakesBytes) ∧
    ∀ layout : Layout, layout.VecElements Kind.TakesBytes →
      ∀ (values : List Value) (out : List UInt8), (layout.encodeInto values out).stop = none →
        ∃ bytes, (layout.encodeInto values out).bytes = out ++ bytes ∧
          ∀ rest, layout.decode (bytes ++ rest) = .ok values := by
  refine ⟨fun t => LawfulRecord.vecElements, ?_⟩
  intro layout helements values out hstop
  have hfits : layout.Fits values := (Layout.stop_encodeInto_iff _ _ _).1 hstop
  refine ⟨layout.wire values, ?_, Layout.decode_wire helements hfits⟩
  rw [Layout.encodeInto_of_fits hfits]
  rfl

end RecordType

end MerkleAirdrop
