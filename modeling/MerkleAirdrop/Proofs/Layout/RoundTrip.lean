/-
  MerkleAirdrop.Proofs.Layout.RoundTrip
  ─────────────────────────────────────
  **WHAT IS WRITTEN IS READ BACK, WHATEVER STANDS BEHIND IT.**

      Kind.reads_wire     k.Fits v → k.read.Reads (k.wire v) v
      Layout.reads_wire   l.Fits vs → l.read.Reads (l.wire vs) vs

  The condition is on the elements of vectors alone: each has a width in
  range and of at least one byte.  A vector is refused when its count times
  the width of its element is more than what is left; the wire form of every
  element takes at least that width, so a count that was written passes.
-/
import MerkleAirdrop.Proofs.Bytes
import MerkleAirdrop.Proofs.Layout.Reader
import MerkleAirdrop.Proofs.Layout.Wire

namespace MerkleAirdrop

open Kind (TakesBytes)

namespace Kind

/-- The count of a vector is read back, and the elements behind it are read
if each of them is. -/
theorem reads_vec {element : Kind} {items : List Value} (hwidth : element.TakesBytes)
    (hcount : items.length < countLimit) (hitems : ∀ item ∈ items, element.Fits item)
    (hreads : ∀ item ∈ items, element.read.Reads (element.wire item) item) :
    (vec element).read.Reads ((vec element).wire (.list items)) (.list items) := by
  obtain ⟨w, hw, hpos⟩ := hwidth
  have hblock := Reader.Reads.block ⟨_, Bytes.length_ofNat countWidth items.length⟩
  have helements := Reader.Reads.repeated hreads
  have hwritten := Bytes.toNat_ofNat (show items.length < 256 ^ countWidth from hcount)
  intro offset rest
  -- The check of the count passes: the elements that were written take at
  -- least their declared width each.
  have hroom : items.length * max w 1 ≤ (items.flatMap element.wire ++ rest).length := by
    have hspan := element.width_eq_span hw
    have hflat : items.length * element.span ≤ (items.flatMap element.wire).length :=
      mul_le_length_flatMap fun item hitem => element.span_le_wire (hitems item hitem)
    rw [Nat.max_eq_left hpos, hspan, List.length_append]
    omega
  rw [wire, List.append_assoc, List.length_append, ← Nat.add_assoc]
  refine read_vec_of_weight hw (hblock offset _) ?_ ?_
  · rw [hwritten]
    exact hroom
  · rw [hwritten]
    exact helements _ rest

/-- **A fitting value is read back from its wire form.** -/
theorem reads_wire (k : Kind) : k.VecElements TakesBytes →
    ∀ {v : Value}, k.Fits v → k.read.Reads (k.wire v) v := by
  induction k with
  | u8 =>
    intro _ v h
    cases v with
    | u8 b => exact (Reader.Reads.byte b).map Value.u8
    | _ => cases h
  | u64 =>
    intro _ v h
    cases v with
    | u64 n =>
      have hread := (Reader.Reads.block ⟨_, length_bytesOfU64 n⟩).map
        fun b => Value.u64 (u64OfBytes b.toList)
      rwa [u64OfBytes_bytesOfU64] at hread
    | _ => cases h
  | i64 =>
    intro _ v h
    cases v with
    | i64 n =>
      have hread := (Reader.Reads.block ⟨_, length_bytesOfI64 n⟩).map
        fun b => Value.i64 (i64OfBytes b.toList)
      rwa [i64OfBytes_bytesOfI64] at hread
    | _ => cases h
  | bool =>
    intro _ v h
    cases v with
    | bool b => cases b <;> exact (Reader.Reads.byte _).map _
    | _ => cases h
  | bytes length =>
    intro _ v h
    obtain ⟨bs, rfl, hlen⟩ := fits_bytes_iff.1 h
    exact (Reader.Reads.block ⟨bs, hlen⟩).map _
  | pubkey =>
    intro _ v h
    cases v with
    | pubkey address => exact (Reader.Reads.block address).map _
    | _ => cases h
  | array element length ih =>
    intro hk v h
    obtain ⟨items, rfl, hlen, hitems⟩ := fits_array_iff.1 h
    have hread := Reader.Reads.repeated fun item hitem => ih hk (hitems item hitem)
    rw [hlen] at hread
    exact hread.map Value.list
  | vec element ih =>
    intro hk v h
    obtain ⟨items, rfl, hcount, hitems⟩ := fits_vec_iff.1 h
    exact reads_vec hk.1 hcount hitems fun item hitem => ih hk.2 (hitems item hitem)

end Kind

namespace Layout

/-- **Fitting values are read back from their wire form.** -/
theorem reads_wire {layout : Layout} {values : List Value}
    (hlayout : layout.VecElements TakesBytes) (h : layout.Fits values) :
    layout.read.Reads (layout.wire values) values := by
  obtain ⟨fields⟩ := layout
  unfold VecElements at hlayout
  unfold Fits at h
  unfold read wire
  dsimp only at hlayout h ⊢
  induction h with
  | nil => exact Reader.Reads.pure []
  | @cons field value fields values hfield _ ih =>
    rw [List.forall_mem_cons] at hlayout
    have hhead := field.kind.reads_wire hlayout.1 hfield
    have htail := ih hlayout.2
    rw [List.mapM_cons]
    exact hhead.bind (htail.map (value :: ·))

/-- What a layout accepts it decodes again, whatever stands behind. -/
theorem decode_wire {layout : Layout} {values : List Value}
    (hlayout : layout.VecElements TakesBytes) (h : layout.Fits values) (rest : List UInt8) :
    layout.decode (layout.wire values ++ rest) = .ok values :=
  decode_of_reads (reads_wire hlayout h) rest

end Layout

end MerkleAirdrop
